import PudimNetMon.Collector.HttpBodies
import PudimNetMon.Lib.Json
import PudimNetMon.Storage.Schedules

/-!
# The POST handlers of the HTTP API (`http_server.cpp`)

A handler reads its body member by member, asks the agent or the storage, and answers. Only the parsing of the body is
in a `try`; what `value` and `get` throw leaves the handler.

- `Outcome`: the answer or the exception, with what the handler did on the way;
- `refuses_invalid_iff`: the bodies that are refused with 400 as they should be.
-/

namespace PudimNetMon.Collector.Http

open Storage (CommandSchedule)

/-! ## Answers and effects -/

structure Response where
  status : Nat := 200
  body : String
  deriving DecidableEq, Repr

structure CommandRun where
  runId : Int64 := 0
  scheduleId : String := ""
  agentId : String := ""
  commandId : String := ""
  scheduledUnixMs : Int64 := 0
  startedUnixMs : Int64 := 0
  finishedUnixMs : Int64 := 0
  success : Bool := false
  error : String := ""
  summary : String := ""
  fieldsJson : String := ""
  issuesJson : String := ""
  detail : String := ""
  deriving DecidableEq

/-- What a handler does to an agent or to the storage. -/
inductive Effect
  | dial (endpoint : String)
  | reconfigure (creq : AgentConfigRequest)
  | runCommand (creq : RunCommandRequest)
  | insertCommandRun (run : CommandRun)
  | finishCommandRun (run : CommandRun)
  | newScheduleId
  | createCommandSchedule (s : CommandSchedule)
  | deleteCommandSchedule (id : String)
  | setCommandScheduleEnabled (id : String) (enabled : Bool)
  deriving DecidableEq

structure Outcome where
  reply : Except JsonException Response
  effects : List Effect := []

def Outcome.answer (r : Response) : Outcome := { reply := .ok r }

/-- The outcome behind an effect. -/
def Outcome.after (e : Effect) (o : Outcome) : Outcome := { o with effects := e :: o.effects }

/-- The rest of a handler behind a reading that may throw. -/
def reading {α : Type} (x : Except JsonException α) (rest : α → Outcome) : Outcome :=
  match x with
  | .ok a => rest a
  | .error e => { reply := .error e }

def badRequest (error : String) : Outcome := .answer { status := 400, body := "\x7b\"error\":\"" ++ error ++ "\"\x7d" }

/-- What the agents, the storage and the clock answer. -/
structure World where
  /-- The storage, if there is one, and whether `IsHealthy`. -/
  storage : Option Bool
  now : Int64
  /-- The clock behind the command. -/
  later : Int64
  diagnosticEndpoint : String → String
  reconfigure : AgentConfigRequest → Except RpcStatus AgentConfigResponse
  runCommand : RunCommandRequest → Except RpcStatus CommandResponse
  insertCommandRun : Int64
  newScheduleId : String
  /-- The error of a write, if it fails. -/
  createCommandSchedule : Option String
  deleteCommandSchedule : Option String
  setCommandScheduleEnabled : Option String
  commandSchedules : List CommandSchedule

section

variable (lib : JsonLib) (w : World)

/-- The parsing of a body; whatever it throws is caught. -/
def withBody (text : String) (rest : Json → Outcome) : Outcome :=
  match lib.parse text with
  | .ok body => rest body
  | .error _ => badRequest "invalid JSON body"

/-- `PrepareAgentCall` -/
def prepareAgentCall (agentId : String) (rest : String → Outcome) : Outcome :=
  let endpoint := w.diagnosticEndpoint agentId
  if endpoint.isEmpty then .answer { status := 404, body := noEndpointBody agentId }
  else .after (.dial endpoint) (rest endpoint)

/-- `SendAgentRpcError` -/
def agentRpcError (status : RpcStatus) (endpoint : String) : Outcome :=
  .answer { status := 502, body := rpcErrorBody status endpoint }

/-- `storage_ready` -/
def storageReady (rest : Outcome) : Outcome :=
  if w.storage = some true then rest
  else .answer { status := 503, body := "\x7b\"error\":\"scheduled commands require TimescaleDB storage\"\x7d" }

def answerDoc (status : Nat) (doc : Json) : Outcome := reading (lib.dump doc) fun body => .answer { status, body }

/-! ## The handlers -/

/-- The `put` of the config handler. -/
def putList (body : Json) (key : String) : Except JsonException (List String) :=
  match body.find? key with
  | some (.array items) => items.mapM Json.getString
  | _ => .ok []

/-- A member that is read when it is there. -/
def getMember {α : Type} (get : Json → Except JsonException α) (body : Json) (key : String) :
    Except JsonException (Option α) :=
  match body.find? key with
  | some v => (get v).map some
  | none => .ok none

def configRequest (agentId : String) (body : Json) : Except JsonException AgentConfigRequest := do
  let dnsTargets ← putList body "dns_targets"
  let tcpTargets ← putList body "tcp_targets"
  let tlsTargets ← putList body "tls_targets"
  let httpTargets ← putList body "http_targets"
  let pingTargets ← putList body "ping_targets"
  let pingCount ← getMember Json.getInt body "ping_count"
  let pingGapMs ← getMember Json.getInt body "ping_gap_ms"
  let tlsCertCheck ← getMember Json.getBool body "tls_cert_check"
  let tcpRetransmitCheck ← getMember Json.getBool body "tcp_retransmit_check"
  let tcpHandshakeCapture ← getMember Json.getBool body "tcp_handshake_capture"
  let httpProtocols ← putList body "http_protocols"
  return { agentId, dnsTargets, tcpTargets, tlsTargets, httpTargets, pingTargets, pingCount := pingCount.getD 0,
           pingGapMs := pingGapMs.getD 0, tlsCertCheck, tcpRetransmitCheck, tcpHandshakeCapture, httpProtocols }

def configHandler (text : String) : Outcome :=
  withBody lib text fun body =>
  reading (body.valueOf Json.getString "agent_id" "") fun agentId =>
  if agentId.isEmpty then badRequest "agent_id is required"
  else
    prepareAgentCall w agentId fun endpoint =>
    reading (configRequest agentId body) fun creq =>
    .after (.reconfigure creq) <|
      match w.reconfigure creq with
      | .error status => agentRpcError status endpoint
      | .ok cresp => .answer { body := configBody cresp }

/-- The parameters of a command: the members of `params` that are strings. -/
def commandParams (body : Json) : List (String × String) :=
  match body.find? "params" with
  | some (.object members) => members.filterMap fun (key, v) => (v.getString.toOption).map fun s => (key, s)
  | _ => []

/-- The run of a command in the history. -/
def recordRun (agentId commandId : String) (cresp : CommandResponse) (rest : Outcome) : Outcome :=
  if w.storage.isNone then rest
  else
    let stamp := Int64.ofInt cresp.timestampUnixMs
    let scheduled := if stamp > 0 then stamp else w.now
    let run : CommandRun := { agentId, commandId, scheduledUnixMs := scheduled, startedUnixMs := scheduled }
    .after (.insertCommandRun run) <|
      if w.insertCommandRun > 0 then
        let fields := cresp.fields.foldl (fun doc kv => doc.set kv.1 (.string kv.2)) (.object [])
        reading (lib.dump fields) fun fieldsJson =>
        reading (lib.dump (.array (cresp.issues.map .string))) fun issuesJson =>
        .after (.finishCommandRun { run with
          runId := w.insertCommandRun, finishedUnixMs := w.later, success := cresp.success, error := cresp.error,
          summary := cresp.summary, fieldsJson, issuesJson, detail := cresp.detail }) rest
      else rest

def runCommandHandler (text : String) : Outcome :=
  withBody lib text fun body =>
  reading (body.valueOf Json.getString "agent_id" "") fun agentId =>
  reading (body.valueOf Json.getString "command_id" "") fun commandId =>
  if agentId.isEmpty || commandId.isEmpty then badRequest "agent_id and command_id are required"
  else
    prepareAgentCall w agentId fun endpoint =>
    let creq : RunCommandRequest := { agentId, commandId, params := commandParams body }
    .after (.runCommand creq) <|
      match w.runCommand creq with
      | .error status => agentRpcError status endpoint
      | .ok cresp => recordRun lib w agentId commandId cresp (.answer { body := commandBody cresp })

/-- `ScheduleToJson` -/
def scheduleToJson (s : CommandSchedule) (now : Int64) : Json :=
  let params := match lib.parse s.paramsJson with
    | .ok params => params
    | .error _ => .object []
  let nextIn := s.nextRunUnixMs - now
  Json.null
    |>.set "id" (.string s.id)
    |>.set "label" (.string s.label)
    |>.set "agent_id" (.string s.agentId)
    |>.set "command_id" (.string s.commandId)
    |>.set "params" params
    |>.set "window_start_unix_ms" (.int s.windowStartUnixMs.toInt)
    |>.set "window_end_unix_ms" (.int s.windowEndUnixMs.toInt)
    |>.set "interval_sec" (.int s.intervalSec.toInt)
    |>.set "next_run_unix_ms" (.int s.nextRunUnixMs.toInt)
    |>.set "enabled" (.bool s.enabled)
    |>.set "expired" (.bool (s.windowEndUnixMs < now))
    |>.set "active" (.bool (s.enabled && s.windowStartUnixMs ≤ now && s.windowEndUnixMs ≥ now))
    |>.set "next_in_ms" (.int (if nextIn > 0 then nextIn.toInt else 0))

/-- A member that is an integer. -/
def integerAt (body : Json) (key : String) : Option Int64 :=
  match body.find? key with
  | some (.int n) => some (Int64.ofInt n)
  | _ => none

def kMinIntervalSec : Int64 := 60

def resultDoc (error : Option String) : Json :=
  Json.null |>.set "success" (.bool error.isNone) |>.set "error" (.string (error.getD ""))

/-- The end of the create handler. -/
def createSchedule (body : Json) (agentId commandId : String) (windowStart windowEnd intervalSec : Int64) : Outcome :=
  .after .newScheduleId <|
  reading (body.valueOf Json.getString "label" "") fun label =>
  reading (match body.find? "params" with
    | some (.object members) => lib.dump (.object members)
    | _ => .ok "\x7b\x7d") fun paramsJson =>
  let s : CommandSchedule :=
    { id := w.newScheduleId, label, agentId, commandId, paramsJson, windowStartUnixMs := windowStart
      windowEndUnixMs := windowEnd, intervalSec, nextRunUnixMs := if w.now < windowStart then windowStart else w.now
      enabled := true }
  .after (.createCommandSchedule s) <|
    match w.createCommandSchedule with
    | some err => answerDoc lib 400 (resultDoc err)
    | none => answerDoc lib 200 ((resultDoc none).set "schedule" (scheduleToJson lib s w.now))

def createScheduleHandler (text : String) : Outcome :=
  storageReady w <|
  withBody lib text fun body =>
  if !body.isObject then badRequest "a JSON object is required"
  else
    reading (body.valueOf Json.getString "agent_id" "") fun agentId =>
    reading (body.valueOf Json.getString "command_id" "") fun commandId =>
    if agentId.isEmpty || commandId.isEmpty then badRequest "agent_id and command_id are required"
    else
      let windowStart := (integerAt body "window_start_unix_ms").getD w.now
      match integerAt body "window_end_unix_ms" with
      | none => badRequest "window_end_unix_ms is required"
      | some windowEnd =>
        match integerAt body "interval_sec" with
        | none => badRequest "interval_sec is required"
        | some intervalSec =>
          if intervalSec < kMinIntervalSec then badRequest "interval_sec must be >= 60"
          else if windowEnd ≤ windowStart ∨ windowEnd < w.now then
            badRequest "window_end_unix_ms must be after the start and in the future"
          else createSchedule lib w body agentId commandId windowStart windowEnd intervalSec

def deleteScheduleHandler (text : String) : Outcome :=
  storageReady w <|
  withBody lib text fun body =>
  reading (body.valueOf Json.getString "id" "") fun id =>
  if id.isEmpty then badRequest "'id' is required"
  else
    .after (.deleteCommandSchedule id) <|
      answerDoc lib (if w.deleteCommandSchedule.isNone then 200 else 400) (resultDoc w.deleteCommandSchedule)

/-- The end of the enable handler. -/
def setEnabled (id : String) (enabled : Bool) : Outcome :=
  let doc := resultDoc w.setCommandScheduleEnabled
  .after (.setCommandScheduleEnabled id enabled) <|
    answerDoc lib (if w.setCommandScheduleEnabled.isNone then 200 else 400) <|
      match w.commandSchedules.find? fun s => s.id = id with
      | some s => doc.set "schedule" (scheduleToJson lib s w.now)
      | none => doc

def enableScheduleHandler (text : String) : Outcome :=
  storageReady w <|
  withBody lib text fun body =>
  reading (body.valueOf Json.getString "id" "") fun id =>
  match body.find? "enabled" with
  | none => badRequest "'id' and 'enabled' are required"
  | some v =>
    if id.isEmpty then badRequest "'id' and 'enabled' are required"
    else reading v.getBool fun enabled => setEnabled lib w id enabled

end

inductive Handler
  | config | runCommand | createSchedule | deleteSchedule | enableSchedule
  deriving DecidableEq

def Handler.handle (lib : JsonLib) (w : World) : Handler → String → Outcome
  | .config => configHandler lib w
  | .runCommand => runCommandHandler lib w
  | .createSchedule => createScheduleHandler lib w
  | .deleteSchedule => deleteScheduleHandler lib w
  | .enableSchedule => enableScheduleHandler lib w

/-! ## What a body needs -/

/-- The required members are there, of the required kinds. -/
def Valid : Handler → Json → Prop
  | .config, body => ∃ id, body.find? "agent_id" = some (.string id)
  | .runCommand, body => (∃ id, body.find? "agent_id" = some (.string id)) ∧
      ∃ id, body.find? "command_id" = some (.string id)
  | .createSchedule, body => (∃ id, body.find? "agent_id" = some (.string id)) ∧
      (∃ id, body.find? "command_id" = some (.string id)) ∧ (∃ n, body.find? "window_end_unix_ms" = some (.int n)) ∧
        ∃ n, body.find? "interval_sec" = some (.int n)
  | .deleteSchedule, body => ∃ id, body.find? "id" = some (.string id)
  | .enableSchedule, body => (∃ id, body.find? "id" = some (.string id)) ∧ ∃ b, body.find? "enabled" = some (.bool b)

/-- The body does not make a reading throw in front of the checks. -/
def Clean : Handler → Json → Prop
  | .config, body => body.isObject = true ∧ body.MemberIs Json.IsString "agent_id"
  | .runCommand, body => body.isObject = true ∧ body.MemberIs Json.IsString "agent_id" ∧
      body.MemberIs Json.IsString "command_id"
  | .createSchedule, body => body.isObject = true →
      body.MemberIs Json.IsString "agent_id" ∧ body.MemberIs Json.IsString "command_id"
  | .deleteSchedule, body => body.isObject = true ∧ body.MemberIs Json.IsString "id"
  | .enableSchedule, body => body.isObject = true ∧ body.MemberIs Json.IsString "id" ∧
      ((∃ id, body.find? "id" = some (.string id) ∧ id ≠ "") → body.MemberIs Json.IsBool "enabled")

/-- The schedule handlers ask for the storage before they look at the body. -/
def Answering (w : World) : Handler → Prop
  | .config | .runCommand => True
  | .createSchedule | .deleteSchedule | .enableSchedule => w.storage = some true

/-- The text is an object with the required members. -/
def ValidText (lib : JsonLib) (h : Handler) (text : String) : Prop := ∃ body, lib.parse text = .ok body ∧ Valid h body

/-- 400, no exception, and nothing done. -/
def Refused (o : Outcome) : Prop := (∃ r, o.reply = .ok r ∧ r.status = 400) ∧ o.effects = []

theorem refused_badRequest (error : String) : Refused (badRequest error) := ⟨⟨_, rfl, rfl⟩, rfl⟩

theorem not_refused_threw {e : JsonException} : ¬Refused { reply := .error e } := fun h => nomatch h.1

/-- A string that is read is there, or it is empty. -/
theorem reading_string {body : Json} {key : String} {rest : String → Outcome} (hobject : body.isObject = true) :
    (¬body.MemberIs Json.IsString key ∧
        ∃ e, reading (body.valueOf Json.getString key "") rest = { reply := .error e }) ∨
      (body.MemberIs Json.IsString key ∧ ∃ s, reading (body.valueOf Json.getString key "") rest = rest s ∧
        ((body.find? key = none ∧ s = "") ∨ body.find? key = some (.string s))) := by
  have hreturns := @Json.valueOf_returns_iff String Json.getString body key ""
  cases hread : body.valueOf Json.getString key "" with
  | error e =>
    refine .inl ⟨fun hkind => ?_, e, rfl⟩
    obtain ⟨s, hs⟩ := hreturns.2 ⟨hobject, fun w hw => Json.getString_returns_iff.2 (hkind w hw)⟩
    exact nomatch hread.symm.trans hs
  | ok s =>
    refine .inr ⟨fun w hw => Json.getString_returns_iff.1 ((hreturns.1 ⟨s, hread⟩).2 w hw), s, rfl, ?_⟩
    obtain ⟨-, hnone | ⟨w, hw, hget⟩⟩ := Json.valueOf_eq_ok_iff.1 hread
    · exact .inl hnone
    · exact .inr (Json.getString_eq_ok.1 hget ▸ hw)

/-- Nothing is read of a body that is no object. -/
theorem reading_nonObject {α : Type} {get : Json → Except JsonException α} {body : Json} {key : String} {default : α}
    {rest : α → Outcome} (hobject : ¬body.isObject = true) :
    reading (body.valueOf get key default) rest = { reply := .error (.typeError 306) } := by
  simp [reading, Json.valueOf, hobject]

section

variable {lib : JsonLib} {w : World} {text : String} {body : Json}

theorem config_refuses_iff (hparse : lib.parse text = .ok body) (hvalid : ¬Valid .config body) :
    Refused (configHandler lib w text) ↔ Clean .config body := by
  unfold configHandler withBody
  rw [hparse]
  dsimp only
  by_cases hobject : body.isObject = true
  · rcases reading_string hobject with ⟨hkind, e, hread⟩ | ⟨hkind, agentId, hread, hid⟩
    · rw [hread]
      exact iff_of_false not_refused_threw fun h => hkind h.2
    · rw [hread]
      rcases hid with ⟨-, rfl⟩ | hid
      · exact iff_of_true (refused_badRequest _) ⟨hobject, hkind⟩
      · exact absurd ⟨agentId, hid⟩ hvalid
  · rw [reading_nonObject hobject]
    exact iff_of_false not_refused_threw fun h => hobject h.1

theorem runCommand_refuses_iff (hparse : lib.parse text = .ok body) (hvalid : ¬Valid .runCommand body) :
    Refused (runCommandHandler lib w text) ↔ Clean .runCommand body := by
  unfold runCommandHandler withBody
  rw [hparse]
  dsimp only
  by_cases hobject : body.isObject = true
  · rcases reading_string hobject with ⟨hkind, e, hread⟩ | ⟨hagent, agentId, hread, hid⟩
    · rw [hread]
      exact iff_of_false not_refused_threw fun h => hkind h.2.1
    rw [hread]
    rcases reading_string hobject with ⟨hkind, e, hread⟩ | ⟨hcommand, commandId, hread, hid'⟩
    · rw [hread]
      exact iff_of_false not_refused_threw fun h => hkind h.2.2
    rw [hread]
    have hclean : Clean .runCommand body := ⟨hobject, hagent, hcommand⟩
    have hmissing : (agentId.isEmpty || commandId.isEmpty) = true := by
      rcases hid with ⟨-, rfl⟩ | hid
      · rfl
      rcases hid' with ⟨-, rfl⟩ | hid'
      · exact Bool.or_true _
      · exact absurd ⟨⟨agentId, hid⟩, ⟨commandId, hid'⟩⟩ hvalid
    rw [if_pos hmissing]
    exact iff_of_true (refused_badRequest _) hclean
  · rw [reading_nonObject hobject]
    exact iff_of_false not_refused_threw fun h => hobject h.1

theorem integerAt_eq_some {key : String} {n : Int64} (h : integerAt body key = some n) :
    ∃ m, body.find? key = some (.int m) := by
  unfold integerAt at h
  split at h
  · rename_i m hm
    exact ⟨m, hm⟩
  · cases h

theorem createSchedule_refuses_iff (hstorage : w.storage = some true) (hparse : lib.parse text = .ok body)
    (hvalid : ¬Valid .createSchedule body) :
    Refused (createScheduleHandler lib w text) ↔ Clean .createSchedule body := by
  unfold createScheduleHandler storageReady withBody
  rw [if_pos hstorage, hparse]
  dsimp only
  by_cases hobject : body.isObject = true
  · rw [if_neg (by simp [hobject])]
    rcases reading_string hobject with ⟨hkind, e, hread⟩ | ⟨hagent, agentId, hread, hid⟩
    · rw [hread]
      exact iff_of_false not_refused_threw fun h => hkind (h hobject).1
    rw [hread]
    rcases reading_string hobject with ⟨hkind, e, hread⟩ | ⟨hcommand, commandId, hread, hid'⟩
    · rw [hread]
      exact iff_of_false not_refused_threw fun h => hkind (h hobject).2
    rw [hread]
    refine iff_of_true ?_ fun _ => ⟨hagent, hcommand⟩
    split
    · exact refused_badRequest _
    rename_i hmissing
    simp only [Bool.or_eq_true, String.isEmpty_iff, not_or] at hmissing
    have hid : ∃ id, body.find? "agent_id" = some (.string id) :=
      hid.elim (fun h => absurd h.2 hmissing.1) fun h => ⟨_, h⟩
    have hid' : ∃ id, body.find? "command_id" = some (.string id) :=
      hid'.elim (fun h => absurd h.2 hmissing.2) fun h => ⟨_, h⟩
    cases hend : integerAt body "window_end_unix_ms" with
    | none => exact refused_badRequest _
    | some windowEnd =>
      cases hinterval : integerAt body "interval_sec" with
      | none => exact refused_badRequest _
      | some intervalSec => exact absurd ⟨hid, hid', integerAt_eq_some hend, integerAt_eq_some hinterval⟩ hvalid
  · rw [if_pos (by simp [hobject])]
    exact iff_of_true (refused_badRequest _) fun h => absurd h hobject

theorem deleteSchedule_refuses_iff (hstorage : w.storage = some true) (hparse : lib.parse text = .ok body)
    (hvalid : ¬Valid .deleteSchedule body) :
    Refused (deleteScheduleHandler lib w text) ↔ Clean .deleteSchedule body := by
  unfold deleteScheduleHandler storageReady withBody
  rw [if_pos hstorage, hparse]
  dsimp only
  by_cases hobject : body.isObject = true
  · rcases reading_string hobject with ⟨hkind, e, hread⟩ | ⟨hkind, id, hread, hid⟩
    · rw [hread]
      exact iff_of_false not_refused_threw fun h => hkind h.2
    · rw [hread]
      rcases hid with ⟨-, rfl⟩ | hid
      · exact iff_of_true (refused_badRequest _) ⟨hobject, hkind⟩
      · exact absurd ⟨id, hid⟩ hvalid
  · rw [reading_nonObject hobject]
    exact iff_of_false not_refused_threw fun h => hobject h.1

theorem enableSchedule_refuses_iff (hstorage : w.storage = some true) (hparse : lib.parse text = .ok body)
    (hvalid : ¬Valid .enableSchedule body) :
    Refused (enableScheduleHandler lib w text) ↔ Clean .enableSchedule body := by
  unfold enableScheduleHandler storageReady withBody
  rw [if_pos hstorage, hparse]
  dsimp only
  by_cases hobject : body.isObject = true
  · rcases reading_string hobject with ⟨hkind, e, hread⟩ | ⟨hkind, id, hread, hid⟩
    · rw [hread]
      exact iff_of_false not_refused_threw fun h => hkind h.2.1
    rw [hread]
    cases henabled : body.find? "enabled" with
    | none =>
      refine iff_of_true (refused_badRequest _) ⟨hobject, hkind, fun _ v hv => ?_⟩
      exact nomatch henabled.symm.trans hv
    | some v =>
      dsimp only
      by_cases hempty : id = ""
      · subst hempty
        refine iff_of_true (refused_badRequest _) ⟨hobject, hkind, fun ⟨id', hid', hne⟩ => ?_⟩
        rcases hid with ⟨hnone, -⟩ | hid
        · exact nomatch hnone.symm.trans hid'
        · cases hid.symm.trans hid'
          exact absurd rfl hne
      · have hid : body.find? "id" = some (.string id) := hid.resolve_left fun h => hempty h.2
        rw [if_neg (by simpa using hempty)]
        cases hread : v.getBool with
        | error e =>
          refine iff_of_false not_refused_threw fun h => ?_
          obtain ⟨b, hb⟩ := Json.getBool_returns_iff.2 (h.2.2 ⟨id, hid, hempty⟩ v henabled)
          exact nomatch hread.symm.trans hb
        | ok b => exact absurd ⟨⟨id, hid⟩, b, Json.getBool_eq_ok.1 hread ▸ henabled⟩ hvalid
  · rw [reading_nonObject hobject]
    exact iff_of_false not_refused_threw fun h => hobject h.1

/-- Without the storage the schedule handlers refuse nothing with 400. -/
theorem not_refused_of_not_answering {h : Handler} (hw : ¬Answering w h) : ¬Refused (h.handle lib w text) := by
  have h503 : ∀ rest, w.storage ≠ some true → ¬Refused (storageReady w rest) := by
    rintro rest hstorage ⟨⟨r, hr, hstatus⟩, -⟩
    rw [storageReady, if_neg hstorage] at hr
    cases hr
    exact absurd hstatus (by decide)
  cases h with
  | config => exact absurd trivial hw
  | runCommand => exact absurd trivial hw
  | createSchedule => exact h503 _ hw
  | deleteSchedule => exact h503 _ hw
  | enableSchedule => exact h503 _ hw

/-- Whatever the parser throws is answered with 400. -/
theorem refused_of_no_json {h : Handler} {e : JsonException} (hw : Answering w h) (hparse : lib.parse text = .error e) :
    Refused (h.handle lib w text) := by
  have hbody : ∀ rest, Refused (withBody lib text rest) := by
    intro rest
    rw [withBody, hparse]
    exact refused_badRequest _
  have hready : ∀ rest, w.storage = some true → Refused (storageReady w (withBody lib text rest)) := by
    intro rest hstorage
    rw [storageReady, if_pos hstorage]
    exact hbody rest
  cases h with
  | config => exact hbody _
  | runCommand => exact hbody _
  | createSchedule => exact hready _ hw
  | deleteSchedule => exact hready _ hw
  | enableSchedule => exact hready _ hw

theorem refused_iff_clean {h : Handler} (hw : Answering w h) (hparse : lib.parse text = .ok body)
    (hvalid : ¬Valid h body) : Refused (h.handle lib w text) ↔ Clean h body := by
  cases h with
  | config => exact config_refuses_iff hparse hvalid
  | runCommand => exact runCommand_refuses_iff hparse hvalid
  | createSchedule => exact createSchedule_refuses_iff hw hparse hvalid
  | deleteSchedule => exact deleteSchedule_refuses_iff hw hparse hvalid
  | enableSchedule => exact enableSchedule_refuses_iff hw hparse hvalid

end

/-- **Main.** A body without the required members is refused with 400, without an exception and without an effect,
exactly when the handler answers at all and no reading in front of its checks throws. -/
theorem refuses_invalid_iff (lib : JsonLib) (w : World) (h : Handler) (text : String) :
    (¬ValidText lib h text → Refused (h.handle lib w text)) ↔
      ValidText lib h text ∨ (Answering w h ∧ ∀ body, lib.parse text = .ok body → Clean h body) := by
  by_cases hvalid : ValidText lib h text
  · exact iff_of_true (fun hne => absurd hvalid hne) (.inl hvalid)
  rw [or_iff_right hvalid, imp_iff_right hvalid]
  by_cases hw : Answering w h
  · rw [and_iff_right hw]
    cases hparse : lib.parse text with
    | error e => exact iff_of_true (refused_of_no_json hw hparse) nofun
    | ok body =>
      rw [refused_iff_clean hw hparse fun hbody => hvalid ⟨body, hparse, hbody⟩]
      exact ⟨fun hclean body' hbody' => Except.ok.inj hbody' ▸ hclean, fun hclean => hclean body rfl⟩
  · exact iff_of_false (not_refused_of_not_answering hw) fun h' => hw h'.1

/-! ## What the create handler stores -/

section

variable {lib : JsonLib} {w : World} {text : String}

/-- An effect behind a reading that did not throw. -/
theorem mem_effects_reading {α : Type} {x : Except JsonException α} {rest : α → Outcome} {e : Effect} :
    e ∈ (reading x rest).effects ↔ ∃ a, x = .ok a ∧ e ∈ (rest a).effects := by
  cases x <;> simp [reading]

@[simp] theorem effects_answer (r : Response) : (Outcome.answer r).effects = [] := rfl
@[simp] theorem effects_badRequest (error : String) : (badRequest error).effects = [] := rfl
@[simp] theorem effects_after (e : Effect) (o : Outcome) : (o.after e).effects = e :: o.effects := rfl

@[simp] theorem effects_answerDoc (status : Nat) (doc : Json) : (answerDoc lib status doc).effects = [] := by
  unfold answerDoc reading
  split <;> rfl

/-- The window and the interval of a stored schedule were checked, and its first slot is the window start, or the
present when that is later. -/
structure Stored (w : World) (s : CommandSchedule) : Prop where
  interval : kMinIntervalSec ≤ s.intervalSec
  window : s.windowStartUnixMs < s.windowEndUnixMs
  ahead : w.now ≤ s.windowEndUnixMs
  next : s.nextRunUnixMs = if w.now < s.windowStartUnixMs then s.windowStartUnixMs else w.now
  enabled : s.enabled = true

theorem stored_of_createSchedule {body : Json} {agentId commandId : String} {ws we iv : Int64} {s : CommandSchedule}
    (hiv : kMinIntervalSec ≤ iv) (hwindow : ws < we) (hahead : w.now ≤ we)
    (h : .createCommandSchedule s ∈ (createSchedule lib w body agentId commandId ws we iv).effects) : Stored w s := by
  unfold createSchedule at h
  rw [effects_after, List.mem_cons, mem_effects_reading] at h
  obtain h | ⟨label, -, h⟩ := h
  · cases h
  obtain ⟨params, -, h⟩ := mem_effects_reading.1 h
  rw [effects_after, List.mem_cons] at h
  rcases h with h | h
  · cases h
    exact ⟨hiv, hwindow, hahead, rfl, rfl⟩
  · cases herror : w.createCommandSchedule <;> simp [herror] at h

/-- **Admission.** What the create handler stores has passed its checks. -/
theorem stored_of_mem_effects {s : CommandSchedule}
    (h : .createCommandSchedule s ∈ (createScheduleHandler lib w text).effects) : Stored w s := by
  unfold createScheduleHandler storageReady withBody at h
  split at h
  · split at h
    · rename_i body _
      dsimp only at h
      split at h
      · simp at h
      obtain ⟨agentId, -, h⟩ := mem_effects_reading.1 h
      obtain ⟨commandId, -, h⟩ := mem_effects_reading.1 h
      split at h
      · simp at h
      split at h
      · simp at h
      · split at h
        · simp at h
        · split at h
          · simp at h
          rename_i hiv
          split at h
          · simp at h
          rename_i hwindow
          rw [not_or, Int64.not_le, Int64.not_lt] at hwindow
          exact stored_of_createSchedule (Int64.not_lt.1 hiv) hwindow.1 hwindow.2 h
    · simp at h
  · simp at h

/-- A body that asks for a window and an interval. -/
def scheduleBody (ws we iv : Int64) : Json :=
  .object [("agent_id", .string "agent-a"), ("command_id", .string "ping_burst"), ("interval_sec", .int iv.toInt),
    ("window_end_unix_ms", .int we.toInt), ("window_start_unix_ms", .int ws.toInt)]

/-- The schedule stored for it. -/
def storedSchedule (w : World) (ws we iv : Int64) : CommandSchedule :=
  { id := w.newScheduleId, agentId := "agent-a", commandId := "ping_burst", windowStartUnixMs := ws
    windowEndUnixMs := we, intervalSec := iv, nextRunUnixMs := if w.now < ws then ws else w.now, enabled := true }

/-- Every window that is not past and every interval from the least one on is stored. -/
theorem mem_effects_scheduleBody {ws we iv : Int64} (hstorage : w.storage = some true)
    (hparse : lib.parse text = .ok (scheduleBody ws we iv)) (hiv : kMinIntervalSec ≤ iv) (hwindow : ws < we)
    (hahead : w.now ≤ we) :
    .createCommandSchedule (storedSchedule w ws we iv) ∈ (createScheduleHandler lib w text).effects := by
  have hchecked : ¬(we ≤ ws ∨ we < w.now) := by
    rw [not_or, Int64.not_le, Int64.not_lt]
    exact ⟨hwindow, hahead⟩
  unfold createScheduleHandler storageReady withBody
  rw [if_pos hstorage, hparse]
  simp [scheduleBody, storedSchedule, Json.isObject, Json.valueOf, Json.find?, Json.getString, List.lookup_cons,
    reading, integerAt, createSchedule, Int64.not_lt.2 hiv, hchecked]

end

/-! ## Bodies of another shape -/

/-- The library on an array and on bodies with members of other kinds. -/
def bodyLib : JsonLib where
  parse text :=
    if text = "[]" then .ok (.array [])
    else if text = "\x7b\"agent_id\":5\x7d" then .ok (.object [("agent_id", .int 5)])
    else if text = "\x7b\"enabled\":1,\"id\":\"cs_1\"\x7d" then
      .ok (.object [("enabled", .int 1), ("id", .string "cs_1")])
    else .error (.parseError "syntax error")
  dump _ := .ok "null"

/-- A collector with its storage and no agent. -/
def emptyWorld : World where
  storage := some true
  now := 0
  later := 0
  diagnosticEndpoint _ := ""
  reconfigure _ := .error ⟨.unavailable, ""⟩
  runCommand _ := .error ⟨.unavailable, ""⟩
  insertCommandRun := -1
  newScheduleId := "cs_0_0"
  createCommandSchedule := none
  deleteCommandSchedule := none
  setCommandScheduleEnabled := none
  commandSchedules := []

/-- An array, a number for an agent and a number for a flag: an exception leaves each of the handlers. -/
theorem wrong_kind_leaves_handlers :
    let meets (h : Handler) (text : String) := ¬ValidText bodyLib h text → Refused (h.handle bodyLib emptyWorld text)
    ¬meets .config "[]" ∧ ¬meets .runCommand "[]" ∧ ¬meets .createSchedule "\x7b\"agent_id\":5\x7d" ∧
      ¬meets .deleteSchedule "[]" ∧ ¬meets .enableSchedule "\x7b\"enabled\":1,\"id\":\"cs_1\"\x7d" := by
  intro meets
  have hthrows : ∀ (h : Handler) (text : String) (body : Json) (n : Nat), bodyLib.parse text = .ok body →
      ¬Valid h body → (h.handle bodyLib emptyWorld text).reply = .error (.typeError n) → ¬meets h text := by
    intro h text body n hparse hvalid hreply hmeets
    have hinvalid : ¬ValidText bodyLib h text := fun ⟨body', hbody', hvalid'⟩ => by
      cases hparse.symm.trans hbody'
      exact hvalid hvalid'
    obtain ⟨⟨r, hr, -⟩, -⟩ := hmeets hinvalid
    exact nomatch hr.symm.trans hreply
  refine ⟨?_, ?_, ?_, ?_, ?_⟩
  · exact hthrows _ _ (.array []) 306 (by simp [bodyLib]) (by simp [Valid, Json.find?]) (by rfl)
  · exact hthrows _ _ (.array []) 306 (by simp [bodyLib]) (by simp [Valid, Json.find?]) (by rfl)
  · exact hthrows _ _ (.object [("agent_id", .int 5)]) 302 (by simp [bodyLib]) (by simp [Valid, Json.find?]) (by rfl)
  · exact hthrows _ _ (.array []) 306 (by simp [bodyLib]) (by simp [Valid, Json.find?]) (by rfl)
  · exact hthrows _ _ (.object [("enabled", .int 1), ("id", .string "cs_1")]) 302 (by simp [bodyLib])
      (by simp [Valid, Json.find?]) (by rfl)

end PudimNetMon.Collector.Http
