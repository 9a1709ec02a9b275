import PudimNetMon.Collector.HttpServer
import PudimNetMon.Collector.RunHistory

/-!
# Runs of a schedule (`command_scheduler.cpp`)

A worker inserts the row of its run, checks the window, the registry and the channel, asks the agent, and records the
result; `executeRun` is what lies between the two statements.

- `worker_records`: what a worker leaves in the history, whatever it meets;
- `scheduled_params_iff`: the parameters a schedule sends are those the run-command handler sends exactly when all are
  texts.
-/

namespace PudimNetMon.Collector

open Storage

/-! ## A worker -/

/-- The text of a parameter: a string as it is, any other value as JSON. -/
def paramText (lib : JsonLib) : Json → Except JsonException String
  | .string s => .ok s
  | v => lib.dump v

/-- The parameters up to the first that cannot be printed; what is thrown there is caught. -/
def scheduledParams (lib : JsonLib) : List (String × Json) → List (String × String)
  | [] => []
  | (key, v) :: members =>
    match paramText lib v with
    | .ok text => (key, text) :: scheduledParams lib members
    | .error _ => []

def scheduledRequest (lib : JsonLib) (sched : CommandSchedule) : RunCommandRequest :=
  { agentId := sched.agentId, commandId := sched.commandId
    params := match lib.parse sched.paramsJson with
      | .ok (.object members) => scheduledParams lib members
      | _ => [] }

/-- What a worker meets on the way: three readings of the clock, the registry, the channel and the agent. -/
structure RunWorld where
  startedUnixMs : Int
  checkedUnixMs : Int
  finishedUnixMs : Int
  endpoint : String
  alive : Bool
  dials : Bool
  runCommand : RunCommandRequest → Except RpcStatus CommandResponse

/-- `record_result` -/
def recordResult (w : RunWorld) (success : Bool) (error summary fieldsJson issuesJson detail : String) : RunResult :=
  { finishedUnixMs := w.finishedUnixMs, success, error
    summary := if summary.isEmpty then (if success then "ok" else "failed") else summary
    fieldsJson, issuesJson, detail }

def failedResult (w : RunWorld) (error : String) : RunResult := recordResult w false error "" "" "" ""

/-- `ExecuteRun` behind `InsertCommandRun`: what it asks the agent and what it hands to `FinishCommandRun`. -/
def executeRun (lib : JsonLib) (w : RunWorld) (sched : CommandSchedule) :
    Option RunCommandRequest × Except JsonException RunResult :=
  if sched.windowEndUnixMs.toInt < w.checkedUnixMs then
    (none, .ok (failedResult w "command window ended before the run could start"))
  else if w.endpoint.isEmpty || !w.alive then (none, .ok (failedResult w "agent offline or unknown; run skipped"))
  else if !w.dials then
    (none, .ok (failedResult w ("could not dial agent diagnostic endpoint " ++ w.endpoint)))
  else
    let req := scheduledRequest lib sched
    (some req, match w.runCommand req with
      | .error status => .ok (failedResult w
          ("agent RPC failed: " ++ status.errorMessage ++ " (diagnostic endpoint " ++ w.endpoint ++ ")"))
      | .ok cresp => do
        let fieldsJson ← lib.dump (cresp.fields.foldl (fun doc kv => doc.set kv.1 (.string kv.2)) (.object []))
        let issuesJson ← lib.dump (.array (cresp.issues.map .string))
        return recordResult w cresp.success cresp.error cresp.summary fieldsJson issuesJson cresp.detail)

/-- The row of a run that starts. -/
def startedRow (w : RunWorld) (sched : CommandSchedule) (runId : Nat) : RunRow :=
  { runId, scheduleId := sched.id, agentId := sched.agentId, commandId := sched.commandId
    scheduledUnixMs := sched.nextRunUnixMs.toInt, startedUnixMs := w.startedUnixMs }

/-- The statements of a worker; without the number of its row it returns, and an exception ends the collector. -/
def workerEvents (lib : JsonLib) (w : RunWorld) (sched : CommandSchedule) (gap : Nat) (insert finish : Verdict)
    (s : History) : List HistoryEvent :=
  let runId := s.nextId + gap
  .insert (startedRow w sched runId) gap insert ::
    if insert = .done then
      match (executeRun lib w sched).2 with
      | .ok result => [.finish runId result finish]
      | .error _ => [.crash]
    else []

/-- The agent can be asked. -/
def RunWorld.Ready (w : RunWorld) (sched : CommandSchedule) : Prop :=
  w.checkedUnixMs ≤ sched.windowEndUnixMs.toInt ∧ w.endpoint ≠ "" ∧ w.alive = true ∧ w.dials = true

/-- The result of a run is honest: it names success exactly when the agent was asked and said so, and an error without a
text is the agent's own. -/
structure HonestResult (lib : JsonLib) (w : RunWorld) (sched : CommandSchedule) (result : RunResult) : Prop where
  finished : result.finishedUnixMs = w.finishedUnixMs
  summary : result.summary ≠ ""
  success : result.success = true ↔ w.Ready sched ∧
    ∃ cresp, w.runCommand (scheduledRequest lib sched) = .ok cresp ∧ cresp.success = true
  error : result.error = "" ↔ w.Ready sched ∧
    ∃ cresp, w.runCommand (scheduledRequest lib sched) = .ok cresp ∧ cresp.error = ""
  answer : ∀ cresp, w.Ready sched → w.runCommand (scheduledRequest lib sched) = .ok cresp →
    result.error = cresp.error ∧ result.detail = cresp.detail ∧ (cresp.summary ≠ "" → result.summary = cresp.summary)

variable {lib : JsonLib} {w : RunWorld} {sched : CommandSchedule}

theorem recordResult_summary_ne {success : Bool} {error summary fieldsJson issuesJson detail : String} :
    (recordResult w success error summary fieldsJson issuesJson detail).summary ≠ "" := by
  unfold recordResult
  by_cases h : summary.isEmpty = true
  · cases success <;> simp [h]
  · simp only [h, Bool.false_eq_true, if_false]
    exact fun he => h (by rw [he]; rfl)

/-- A run that could not ask the agent. -/
theorem honest_of_not_ready (h : ¬w.Ready sched) {error : String} (herror : error ≠ "") :
    HonestResult lib w sched (failedResult w error) where
  finished := rfl
  summary := recordResult_summary_ne
  success := by simp [failedResult, recordResult, h]
  error := iff_of_false herror fun hready => h hready.1
  answer := fun _ hready => absurd hready h

/-- What a worker asks and records. -/
theorem executeRun_spec (hprints : lib.Prints) : ∃ result, (executeRun lib w sched).2 = .ok result ∧
    HonestResult lib w sched result ∧
    ((executeRun lib w sched).1 = some (scheduledRequest lib sched) ∧ w.Ready sched ∨
      (executeRun lib w sched).1 = none ∧ ¬w.Ready sched) := by
  unfold executeRun
  split
  · rename_i hwindow
    have hready : ¬w.Ready sched := fun h => absurd h.1 (by omega)
    exact ⟨_, rfl, honest_of_not_ready hready (by simp), .inr ⟨rfl, hready⟩⟩
  · rename_i hwindow
    split
    · rename_i hoffline
      have hready : ¬w.Ready sched := by
        rintro ⟨-, hend, halive, -⟩
        simp [halive, hend] at hoffline
      exact ⟨_, rfl, honest_of_not_ready hready (by simp), .inr ⟨rfl, hready⟩⟩
    · rename_i honline
      split
      · rename_i hdials
        have hready : ¬w.Ready sched := fun h => by simp [h.2.2.2] at hdials
        exact ⟨_, rfl, honest_of_not_ready hready (by simp), .inr ⟨rfl, hready⟩⟩
      · rename_i hdials
        have hready : w.Ready sched := by
          simp only [Bool.or_eq_true, not_or, String.isEmpty_iff, Bool.not_eq_true',
            Bool.not_eq_false] at honline hdials
          exact ⟨by omega, honline.1, honline.2, hdials⟩
        dsimp only
        cases hreply : w.runCommand (scheduledRequest lib sched) with
        | error status =>
          dsimp only
          refine ⟨_, rfl, ⟨rfl, recordResult_summary_ne, ?_, ?_, ?_⟩, .inl ⟨rfl, hready⟩⟩
          · simp [failedResult, recordResult, hreply]
          · simp [failedResult, recordResult, hreply]
          · intro cresp _ h
            rw [hreply] at h
            cases h
        | ok cresp =>
          obtain ⟨fieldsJson, hfields⟩ :=
            hprints (cresp.fields.foldl (fun doc kv => doc.set kv.1 (.string kv.2)) (.object []))
          obtain ⟨issuesJson, hissues⟩ := hprints (.array (cresp.issues.map .string))
          dsimp only
          rw [hfields, hissues]
          refine ⟨_, rfl, ⟨rfl, recordResult_summary_ne, ?_, ?_, ?_⟩, .inl ⟨rfl, hready⟩⟩
          · simp [recordResult, hreply, hready]
          · simp [recordResult, hreply, hready]
          · intro cresp' _ h
            rw [hreply] at h
            cases h
            refine ⟨rfl, rfl, fun hne => if_neg ?_⟩
            rwa [String.isEmpty_iff]

/-- A row that is inserted and finished. -/
theorem finish_insert {t : CommandRuns} {row : RunRow} (hfresh : ∀ r ∈ t.rows, r.runId ≠ row.runId)
    (result : RunResult) : (t.insert row).rows = t.rows ++ [row] ∧ (finishCommandRun row.runId result (t.insert row)).rows =
      t.rows ++ [{ row with result := some result }] := by
  have hrows : (t.insert row).rows = t.rows ++ [row] := by
    refine KeyedTable.insert_free fun hk => ?_
    obtain ⟨r, hr, heq⟩ := List.mem_map.1 hk
    exact hfresh r hr heq
  refine ⟨hrows, ?_⟩
  rw [finishCommandRun, KeyedTable.modify]
  dsimp only
  rw [hrows, List.map_append, List.map_singleton, if_pos rfl]
  congr 1
  exact (List.map_congr_left fun r hr => if_neg (hfresh r hr)).trans (List.map_id _)

/-- What a worker leaves: no row when its insert is refused; a row without a result when the number of the row or the
result is lost; otherwise a row with the result. -/
def workerRows (w : RunWorld) (sched : CommandSchedule) (runId : Nat) (result : RunResult) (insert finish : Verdict) :
    List RunRow :=
  match insert with
  | .refused => []
  | .lostReply => [startedRow w sched runId]
  | .done => [{ startedRow w sched runId with result := if finish = .refused then none else some result }]

/-- **A worker** in any state of the history: it leaves its row behind those of the others, with an honest result, and
the runs of the other workers are on their way as before. -/
theorem worker_records (hprints : lib.Prints) (es : List HistoryEvent) {s : History}
    (hs : runEvents History.step { } es = some s) (gap : Nat) (insert finish : Verdict) :
    ∃ s' result, runEvents History.step s (workerEvents lib w sched gap insert finish s) = some s' ∧
      HonestResult lib w sched result ∧
      s'.table.rows = s.table.rows ++ workerRows w sched (s.nextId + gap) result insert finish ∧
      s'.executing = s.executing := by
  have hinv : HistoryInv s := by
    refine Always.last (P := HistoryInv) (always_of_inv (fun _ _ _ h hs => h.step hs) (fun _ h => h) ?_) hs
    exact historyInv_empty
  obtain ⟨result, hresult, hhonest, -⟩ := @executeRun_spec lib w sched hprints
  have hfresh : s.nextId + gap ∉ s.executing := fun hin => by
    have := hinv.executingLt _ hin
    omega
  have hold : ∀ r ∈ s.table.rows, r.runId ≠ (startedRow w sched (s.nextId + gap)).runId := fun r hr => by
    have := hinv.row_lt hr
    simp only [startedRow]
    omega
  obtain ⟨hinsert, hfinish⟩ := finish_insert hold result
  cases insert with
  | refused => exact ⟨_, result, rfl, hhonest, (List.append_nil _).symm, rfl⟩
  | lostReply => exact ⟨_, result, rfl, hhonest, hinsert, rfl⟩
  | done =>
    obtain ⟨s', hrun⟩ : ∃ s', runEvents History.step s (workerEvents lib w sched gap .done finish s) = some s' := by
      simp only [workerEvents, if_true, hresult, runEvents, History.step, Option.bind_some]
      rw [if_pos (by simp), Option.bind_some]
      exact ⟨_, rfl⟩
    refine ⟨s', result, hrun, hhonest, ?_⟩
    simp only [workerEvents, if_true, hresult, runEvents, History.step, Option.bind_some] at hrun
    rw [if_pos (by simp), Option.bind_some, Option.some.injEq] at hrun
    subst hrun
    constructor
    · cases finish with
      | refused => exact hinsert
      | done | lostReply => exact hfinish
    · simp [List.erase_append_right _ hfresh]

/-! ## The parameters of a schedule -/

/-- The text under which a value is sent in a parameter is that of a string only if it is one. -/
def AllTexts (members : List (String × Json)) : Prop := ∀ m ∈ members, m.2.IsString

theorem scheduledParams_texts {members : List (String × Json)} (h : AllTexts members) :
    scheduledParams lib members =
      members.filterMap fun (key, v) => (v.getString.toOption).map fun s => (key, s) := by
  induction members with
  | nil => rfl
  | cons m members ih =>
    obtain ⟨key, v⟩ := m
    obtain ⟨text, hv⟩ := Json.getString_returns_iff.2 (h (key, v) List.mem_cons_self)
    rw [Json.getString_eq_ok] at hv
    subst hv
    rw [List.filterMap_cons, scheduledParams, ih fun m hm => h m (List.mem_cons_of_mem _ hm)]
    rfl

/-- Of members that are all printed, every one is sent. -/
theorem length_scheduledParams (hprints : lib.Prints) (members : List (String × Json)) :
    (scheduledParams lib members).length = members.length := by
  induction members with
  | nil => rfl
  | cons m members ih =>
    obtain ⟨key, v⟩ := m
    have htext : ∃ text, paramText lib v = .ok text := by
      cases v with
      | string s => exact ⟨s, rfl⟩
      | null | bool | int | float | array | object => exact hprints _
    obtain ⟨text, htext⟩ := htext
    rw [scheduledParams, htext]
    simp [ih]

/-- The members of the parameters in a body. -/
def paramMembers (body : Json) : List (String × Json) :=
  match body.find? "params" with
  | some (.object members) => members
  | _ => []

theorem commandParams_eq (body : Json) : Http.commandParams body =
    (paramMembers body).filterMap fun (key, v) => (v.getString.toOption).map fun s => (key, s) := by
  unfold Http.commandParams paramMembers
  cases body.find? "params" with
  | none => rfl
  | some v => cases v <;> rfl

/-- The parameters sent in the two ways are the same when every one is a text, and only then. -/
theorem scheduledParams_eq_iff (hprints : lib.Prints) (body : Json) :
    scheduledParams lib (paramMembers body) = Http.commandParams body ↔ AllTexts (paramMembers body) := by
  rw [commandParams_eq]
  refine ⟨fun h m hm => ?_, scheduledParams_texts⟩
  have hlength := congrArg List.length h
  rw [length_scheduledParams hprints, eq_comm, List.filterMap_length_eq_length] at hlength
  have hsome := hlength m hm
  cases hv : m.2.getString with
  | ok s => exact Json.getString_returns_iff.1 ⟨s, hv⟩
  | error e => simp [hv, Except.toOption] at hsome

/-- What the run-command handler asks an agent. -/
theorem asked_of_runCommandHandler {w : Http.World} {text : String} {body : Json} (hparse : lib.parse text = .ok body)
    {creq : RunCommandRequest} (h : .runCommand creq ∈ (Http.runCommandHandler lib w text).effects) :
    body.valueOf Json.getString "agent_id" "" = .ok creq.agentId ∧
      body.valueOf Json.getString "command_id" "" = .ok creq.commandId ∧ creq.params = Http.commandParams body := by
  unfold Http.runCommandHandler Http.withBody at h
  rw [hparse] at h
  obtain ⟨agentId, hagent, h⟩ := Http.mem_effects_reading.1 h
  obtain ⟨commandId, hcommand, h⟩ := Http.mem_effects_reading.1 h
  split at h
  · simp at h
  unfold Http.prepareAgentCall at h
  dsimp only at h
  split at h
  · simp at h
  rw [Http.effects_after, List.mem_cons, Http.effects_after, List.mem_cons] at h
  rcases h with h | h | h
  · cases h
  · cases h
    exact ⟨hagent, hcommand, rfl⟩
  · -- what follows the answer is the history's
    exfalso
    split at h
    · simp [Http.agentRpcError] at h
    · unfold Http.recordRun at h
      split at h
      · simp at h
      · rw [Http.effects_after, List.mem_cons] at h
        rcases h with h | h
        · cases h
        split at h
        · obtain ⟨_, -, h⟩ := Http.mem_effects_reading.1 h
          obtain ⟨_, -, h⟩ := Http.mem_effects_reading.1 h
          simp at h
        · simp at h

/-- The text stored for the parameters of a body. -/
theorem stored_params {body : Json} {t : String} (h : (match body.find? "params" with
      | some (.object members) => lib.dump (.object members)
      | _ => .ok "\x7b\x7d") = .ok t) :
    lib.dump (.object (paramMembers body)) = .ok t ∨ paramMembers body = [] ∧ t = "\x7b\x7d" := by
  unfold paramMembers
  cases hfind : body.find? "params" with
  | none =>
    simp only [hfind, Except.ok.injEq] at h
    exact .inr ⟨rfl, h.symm⟩
  | some v =>
    cases v with
    | object members =>
      simp only [hfind] at h
      exact .inl h
    | null | bool | int | float | string | array =>
      simp only [hfind, Except.ok.injEq] at h
      exact .inr ⟨rfl, h.symm⟩

/-- What the create handler stores of a body's agent, command and parameters. -/
theorem stored_of_createScheduleHandler {w : Http.World} {text : String} {body : Json}
    (hparse : lib.parse text = .ok body) {s : CommandSchedule}
    (h : .createCommandSchedule s ∈ (Http.createScheduleHandler lib w text).effects) :
    body.valueOf Json.getString "agent_id" "" = .ok s.agentId ∧
      body.valueOf Json.getString "command_id" "" = .ok s.commandId ∧
      (lib.dump (.object (paramMembers body)) = .ok s.paramsJson ∨
        paramMembers body = [] ∧ s.paramsJson = "\x7b\x7d") := by
  unfold Http.createScheduleHandler Http.storageReady Http.withBody at h
  rw [hparse] at h
  split at h
  · dsimp only at h
    split at h
    · simp at h
    obtain ⟨agentId, hagent, h⟩ := Http.mem_effects_reading.1 h
    obtain ⟨commandId, hcommand, h⟩ := Http.mem_effects_reading.1 h
    split at h
    · simp at h
    split at h
    · simp at h
    · split at h
      · simp at h
      · split at h
        · simp at h
        split at h
        · simp at h
        unfold Http.createSchedule at h
        rw [Http.effects_after, List.mem_cons] at h
        rcases h with h | h
        · cases h
        obtain ⟨label, -, h⟩ := Http.mem_effects_reading.1 h
        obtain ⟨paramsJson, hparams, h⟩ := Http.mem_effects_reading.1 h
        rw [Http.effects_after, List.mem_cons] at h
        rcases h with h | h
        · cases h
          exact ⟨hagent, hcommand, stored_params hparams⟩
        · cases herror : w.createCommandSchedule <;> simp [herror] at h
  · simp at h

/-- **Main.** One body, sent to the create handler and to the run-command handler: a run of the schedule asks the same
agent for the same command as the run at once does, and with the same parameters if and only if every parameter is a
text. What is printed for the parameters is taken to be read back. -/
theorem scheduled_params_iff {w w' : Http.World} {text : String} {body : Json} {creq : RunCommandRequest}
    (hprints : lib.Prints) (hparse : lib.parse text = .ok body)
    (hback : ∀ t, lib.dump (.object (paramMembers body)) = .ok t ∨ paramMembers body = [] ∧ t = "\x7b\x7d" →
      lib.parse t = .ok (.object (paramMembers body)))
    (hstored : .createCommandSchedule sched ∈ (Http.createScheduleHandler lib w text).effects)
    (hasked : .runCommand creq ∈ (Http.runCommandHandler lib w' text).effects) :
    (scheduledRequest lib sched).agentId = creq.agentId ∧ (scheduledRequest lib sched).commandId = creq.commandId ∧
      (scheduledRequest lib sched = creq ↔ AllTexts (paramMembers body)) := by
  obtain ⟨hagent, hcommand, hparams⟩ := stored_of_createScheduleHandler hparse hstored
  obtain ⟨hagent', hcommand', hparams'⟩ := asked_of_runCommandHandler hparse hasked
  have hreq : scheduledRequest lib sched =
      { agentId := sched.agentId, commandId := sched.commandId
        params := scheduledParams lib (paramMembers body) } := by
    unfold scheduledRequest
    rw [hback _ hparams]
  have hagents : sched.agentId = creq.agentId := Except.ok.inj (hagent.symm.trans hagent')
  have hcommands : sched.commandId = creq.commandId := Except.ok.inj (hcommand.symm.trans hcommand')
  rw [hreq, ← scheduledParams_eq_iff hprints, ← hparams']
  refine ⟨hagents, hcommands, fun h => congrArg RunCommandRequest.params h, fun h => ?_⟩
  rw [hagents, hcommands, h]

/-- Parameters with a number among them, and a body with them. -/
def burstParams : List (String × Json) := [("count", .int 5), ("target", .string "1.1.1.1")]

def burstParamsText : String := "\x7b\"count\":5,\"target\":\"1.1.1.1\"\x7d"

def burstBody : Json :=
  .object [("agent_id", .string "agent-a"), ("command_id", .string "ping_burst"), ("interval_sec", .int 60),
    ("params", .object burstParams), ("window_end_unix_ms", .int 1000)]

def burstText : String :=
  "\x7b\"agent_id\":\"agent-a\",\"command_id\":\"ping_burst\",\"interval_sec\":60,\"params\":" ++ burstParamsText ++
    ",\"window_end_unix_ms\":1000\x7d"

/-- The library on these texts. -/
def burstLib : JsonLib where
  parse text :=
    if text = burstText then .ok burstBody
    else if text = burstParamsText then .ok (.object burstParams)
    else .error (.parseError "syntax error")
  dump j := .ok <|
    match j with
    | .object [] => "\x7b\x7d"
    | .object _ => burstParamsText
    | .array _ => "[]"
    | .int n => toString n
    | _ => "null"

theorem burstLib_parse : burstLib.parse burstText = .ok burstBody ∧
    burstLib.parse burstParamsText = .ok (.object burstParams) := by
  constructor
  · simp only [burstLib, if_true]
  · have hne : burstParamsText ≠ burstText := by decide +kernel
    simp only [burstLib, hne, if_true, if_false]

/-- A collector that knows the agent. -/
def burstWorld : Http.World :=
  { Http.emptyWorld with diagnosticEndpoint := fun _ => "10.0.0.9:50052" }

/-- The schedule of the body. -/
def burstSchedule : CommandSchedule :=
  { id := "cs_0_0", agentId := "agent-a", commandId := "ping_burst", paramsJson := burstParamsText
    windowEndUnixMs := 1000, intervalSec := 60, enabled := true }

/-- The run at once leaves the number out, and the schedule sends it. -/
theorem scheduled_params_burst :
    scheduledRequest burstLib burstSchedule ≠
      { agentId := "agent-a", commandId := "ping_burst", params := [("target", "1.1.1.1")] } := by
  intro h
  have hparams : paramMembers burstBody = burstParams := by
    simp [paramMembers, burstBody, Json.find?, List.lookup_cons]
  obtain ⟨hbody, hread⟩ := burstLib_parse
  have hiff := (@scheduled_params_iff burstLib burstSchedule burstWorld burstWorld burstText burstBody _
    (fun j => ⟨_, rfl⟩) hbody ?_ ?_ ?_).2.2.1 h
  · rw [hparams] at hiff
    obtain ⟨text, htext⟩ := hiff ("count", .int 5) List.mem_cons_self
    cases htext
  · rw [hparams]
    rintro t (ht | ⟨hnil, -⟩)
    · rw [← Except.ok.inj ht]
      exact hread
    · simp [burstParams] at hnil
  · unfold Http.createScheduleHandler Http.storageReady Http.withBody
    rw [hbody]
    simp [burstLib, burstBody, burstParams, burstWorld, Http.emptyWorld, burstSchedule, Json.isObject, Json.valueOf,
      Json.find?, Json.getString, List.lookup_cons, Http.reading, Http.integerAt, Http.createSchedule,
      Http.kMinIntervalSec]
  · unfold Http.runCommandHandler Http.withBody
    rw [hbody]
    simp [burstBody, burstParams, burstWorld, Json.isObject, Json.valueOf, Json.find?, Json.getString,
      List.lookup_cons, Http.reading, Http.prepareAgentCall, Http.commandParams, Except.toOption]

/-- A worker whose agent does not answer heartbeats any more. -/
def offlineWorld : RunWorld where
  startedUnixMs := 500
  checkedUnixMs := 501
  finishedUnixMs := 502
  endpoint := "10.0.0.9:50052"
  alive := false
  dials := true
  runCommand _ := .error ⟨.unavailable, ""⟩

/-- Its run is in the table as one that was skipped, though the collector did not see that. -/
theorem worker_records_offline : ∃ result, HonestResult burstLib offlineWorld burstSchedule result ∧
    result.error ≠ "" ∧
    (runEvents History.step { } (workerEvents burstLib offlineWorld burstSchedule 0 .done .lostReply { })).map
      (·.table.rows) = some [{ startedRow offlineWorld burstSchedule 1 with result := some result }] := by
  obtain ⟨s', result, hrun, hhonest, hrows, -⟩ :=
    @worker_records burstLib offlineWorld burstSchedule (fun j => ⟨_, rfl⟩) [] _ rfl 0 .done .lostReply
  refine ⟨result, hhonest, fun herror => ?_, ?_⟩
  · obtain ⟨⟨-, -, halive, -⟩, -⟩ := hhonest.error.1 herror
    cases halive
  · rw [hrun, Option.map_some, hrows]
    rfl

end PudimNetMon.Collector
