import PudimNetMon.Alerting.Manager
import PudimNetMon.Lib.Json
import PudimNetMon.Lib.Run

/-!
# The rules file (`alert_manager.cpp`)

`LoadRulesFromFile` fills the manager from a file and remembers its path; `UpsertRule` and `DeleteRule` write the whole
file anew, from a truncated one, before they change the manager. How far a write gets is an argument of the call.

- `parseRule_ruleToJson`: a stored rule is read back from its JSON value;
- `rulesFile_mirrors`: as long as a write that truncated the file goes through, the file is the manager's rule set and
  a call that returns false changes nothing.
-/

namespace PudimNetMon.Alerting

/-- How a call ends: true, false with an error, or an exception. -/
inductive Reply
  | ok
  | failed (error : String)
  | threw (e : JsonException)
  deriving DecidableEq, Repr

/-! ## Rules as JSON -/

def ruleToJson (r : AlertRule) : Json :=
  Json.null
    |>.set "id" (.string r.id)
    |>.set "name" (.string r.name)
    |>.set "agent_id" (.string r.agentId)
    |>.set "check_type" (.string r.checkType)
    |>.set "target" (.string r.target)
    |>.set "metric" (.string r.metricField)
    |>.set "op" (.string (if r.greaterThan then ">" else "<"))
    |>.set "threshold" (.float r.threshold)
    |>.set "repeat_interval_sec" (.int r.repeatIntervalSec)
    |>.set "severity" (.string r.severity)
    |>.set "on_failure" (.bool r.onFailure)

/-- The checks of `ParseRule` behind the reading of the members. -/
def checkRule (rule : AlertRule) (op : String) : Except String AlertRule :=
  if op ≠ ">" ∧ op ≠ "<" then
    .error ("rule '" ++ rule.id ++ "' has invalid op '" ++ op ++ "' (expected '>' or '<')")
  else if !rule.onFailure && rule.metricField.isEmpty then
    .error ("rule '" ++ rule.id ++ "' missing required 'metric' field")
  else .ok { rule with greaterThan := op = ">" }

def parseRule (r : Json) : Except JsonException (Except String AlertRule) := do
  let id ← r.valueOf Json.getString "id" ""
  if id.isEmpty then return .error "rule missing required 'id'"
  let name ← r.valueOf Json.getString "name" id
  let agentId ← r.valueOf Json.getString "agent_id" ""
  let checkType ← r.valueOf Json.getString "check_type" ""
  let target ← r.valueOf Json.getString "target" ""
  let metricField ← r.valueOf Json.getString "metric" ""
  let severity ← r.valueOf Json.getString "severity" "warning"
  let threshold ← r.valueOf Json.getDouble "threshold" .zero
  let repeatIntervalSec ← r.valueOf Json.getInt "repeat_interval_sec" 300
  let onFailure ← r.valueOf Json.getBool "on_failure" false
  let op ← r.valueOf Json.getString "op" ">"
  return checkRule { id, name, agentId, checkType, target, metricField, threshold, repeatIntervalSec, severity,
                     onFailure } op

/-- The loop of `LoadRulesFromJson`. -/
def parseRules : List Json → Except JsonException (Except String (List AlertRule))
  | [] => .ok (.ok [])
  | r :: rs => do
    match ← parseRule r with
    | .error error => return .error error
    | .ok rule =>
      match ← parseRules rs with
      | .error error => return .error error
      | .ok rules => return .ok (rule :: rules)

/-- The rules of a document. -/
def docRules (doc : Json) : Except JsonException (Except String (List AlertRule)) :=
  match doc.find? "rules" with
  | none | some .null => .ok (.ok [])
  | some (.array items) => parseRules items
  | some _ => .ok (.error "'rules' must be an array")

/-- The rules and the webhook of a document. -/
def loadDoc (doc : Json) : Except JsonException (Except String (List AlertRule × String)) := do
  match ← docRules doc with
  | .error error => return .error error
  | .ok rules =>
    let webhookUrl ← doc.valueOf Json.getString "webhook_url" ""
    return .ok (rules, webhookUrl)

/-- What a text says, with the parser's own error caught. -/
def readRules (lib : JsonLib) (text : String) : Except JsonException (Except String (List AlertRule × String)) :=
  match lib.parse text with
  | .error (.parseError what) => .ok (.error ("JSON parse error: " ++ what))
  | .error e => .error e
  | .ok doc => loadDoc doc

/-- The document `WriteRulesFileLocked` prints. -/
def rulesDoc (rules : List AlertRule) (webhookUrl : String) : Json :=
  Json.null |>.set "webhook_url" (.string webhookUrl) |>.set "rules" (.array (rules.map ruleToJson))

/-! ## The calls -/

structure Store where
  manager : AlertManager := {}
  /-- The file system. -/
  files : String → Option String

/-- How far writing a file gets. -/
structure WriteAnswers where
  opens : Bool
  /-- `out.good()` behind the insertion. -/
  good : Bool
  /-- The number of characters that reach the file by the time it is closed, or all of them. -/
  reached : Option Nat

inductive Call
  | load (path : String) (opens : Bool)
  | upsert (ruleJson : String) (a : WriteAnswers)
  | delete (ruleId : String) (a : WriteAnswers)

section

variable (lib : JsonLib)

def loadRulesFromJson (m : AlertManager) (json : String) : Reply × AlertManager :=
  match readRules lib json with
  | .error e => (.threw e, m)
  | .ok (.error error) => (.failed error, m)
  | .ok (.ok (rules, webhookUrl)) =>
    let hook := if webhookUrl ≠ "" ∧ webhookUrl ≠ "log" then [Notifier.webhook webhookUrl] else []
    (.ok, { m with rules, states := ∅, webhookUrl, notifiers := .log :: hook })

def loadRulesFromFile (s : Store) (path : String) (opens : Bool) : Reply × Store :=
  match if opens then s.files path else none with
  | none => (.failed ("cannot open rules file: " ++ path), s)
  | some text =>
    match loadRulesFromJson lib s.manager text with
    | (.ok, m) => (.ok, { s with manager := { m with rulesPath := path } })
    | (reply, m) => (reply, { s with manager := m })

/-- What has reached the file. -/
def WriteAnswers.content (a : WriteAnswers) (text : String) : String :=
  match a.reached with
  | none => text
  | some n => String.ofList (text.toList.take n)

def writeRulesFileLocked (s : Store) (a : WriteAnswers) (rules : List AlertRule) (path : String) : Reply × Store :=
  if !a.opens then (.failed ("cannot write alert rules file: " ++ path), s)
  else
    match lib.dump (rulesDoc rules s.manager.webhookUrl) with
    | .error e => (.threw e, { s with files := Function.update s.files path (some "") })
    | .ok text =>
      (if a.good then .ok else .failed ("error writing alert rules file: " ++ path),
        { s with files := Function.update s.files path (some (a.content (text ++ "\n"))) })

/-- The write in front of a change; without a path there is none. -/
def persist (s : Store) (a : WriteAnswers) (candidate : List AlertRule) : Reply × Store :=
  if s.manager.rulesPath.isEmpty then (.ok, s) else writeRulesFileLocked lib s a candidate s.manager.rulesPath

/-- The first rule of that id is replaced; when there is none, the rule is appended. -/
def upsertInto (rule : AlertRule) : List AlertRule → List AlertRule
  | [] => [rule]
  | r :: rs => if r.id = rule.id then rule :: rs else r :: upsertInto rule rs

def upsertRule (s : Store) (ruleJson : String) (a : WriteAnswers) : Reply × Store :=
  match lib.parse ruleJson with
  | .error (.parseError what) => (.failed ("invalid rule JSON: " ++ what), s)
  | .error e => (.threw e, s)
  | .ok doc =>
    if !doc.isObject then (.failed "rule must be a JSON object", s)
    else
      match parseRule doc with
      | .error e => (.threw e, s)
      | .ok (.error error) => (.failed error, s)
      | .ok (.ok rule) =>
        let candidate := upsertInto rule s.manager.rules
        match persist lib s a candidate with
        | (.ok, s) => (.ok, { s with manager := { s.manager with rules := candidate } })
        | (reply, s) => (reply, s)

/-- The states left when those of a rule are forgotten. -/
def forgetRule (ruleId : String) (states : States) : States :=
  ⟨states.entries.filter fun e => !(ruleId ++ kKeySep).toList.isPrefixOf e.1.toList,
    states.nodupKeys.sublist List.filter_sublist⟩

def deleteRule (s : Store) (ruleId : String) (a : WriteAnswers) : Reply × Store :=
  if ruleId.isEmpty then (.failed "rule_id is required", s)
  else
    let candidate := s.manager.rules.filter fun r => r.id ≠ ruleId
    if candidate.length = s.manager.rules.length then (.failed ("no rule with id '" ++ ruleId ++ "'"), s)
    else
      match persist lib s a candidate with
      | (.ok, s) =>
        (.ok, { s with manager := { s.manager with rules := candidate, states := forgetRule ruleId s.manager.states } })
      | (reply, s) => (reply, s)

def Store.call (s : Store) : Call → Reply × Store
  | .load path opens => loadRulesFromFile lib s path opens
  | .upsert ruleJson a => upsertRule lib s ruleJson a
  | .delete ruleId a => deleteRule lib s ruleId a

def Store.step (s : Store) (c : Call) : Option Store := some (s.call lib c).2

end

/-! ## Rules are read back -/

/-- What `ParseRule` makes sure of. -/
structure AlertRule.Storable (r : AlertRule) : Prop where
  id : r.id ≠ ""
  metric : r.onFailure = true ∨ r.metricField ≠ ""
  threshold : r.threshold.isFinite = true
  interval : -2 ^ 31 ≤ r.repeatIntervalSec ∧ r.repeatIntervalSec < 2 ^ 31

theorem checkRule_eq_ok {rule r : AlertRule} {op : String} (h : checkRule rule op = .ok r) :
    (rule.onFailure = true ∨ rule.metricField ≠ "") ∧ r = { rule with greaterThan := op = ">" } := by
  unfold checkRule at h
  split at h
  · cases h
  split at h
  · cases h
  · rename_i hmetric
    refine ⟨?_, (Except.ok.inj h).symm⟩
    simpa [or_iff_not_imp_left] using hmetric

/-- A rule that is read is storable. -/
theorem storable_of_parseRule {j : Json} {r : AlertRule} (hj : j.WellFormed) (h : parseRule j = .ok (.ok r)) :
    r.Storable := by
  obtain ⟨id, -, h⟩ := bind_eq_ok.1 h
  split at h
  · cases h
  rename_i hid
  simp only [bind_eq_ok] at h
  obtain ⟨name, -, agentId, -, checkType, -, target, -, metricField, -, severity, -, threshold, hthreshold,
    interval, hinterval, onFailure, -, op, -, h⟩ := h
  obtain ⟨hmetric, rfl⟩ := checkRule_eq_ok (Except.ok.inj h)
  refine ⟨by simpa using hid, hmetric, ?_, ?_⟩
  · rcases Json.valueOf_eq_ok hthreshold with rfl | ⟨w, hw, hget⟩
    · rfl
    · exact (hj.find? hw).getDouble hget
  · rcases Json.valueOf_eq_ok hinterval with rfl | ⟨w, -, hget⟩
    · show (-2 ^ 31 : Int) ≤ 300 ∧ (300 : Int) < 2 ^ 31
      decide
    · exact Json.getInt_bounds hget

/-- A stored rule is read back from its JSON value. -/
theorem parseRule_ruleToJson {r : AlertRule} (h : r.Storable) : parseRule (ruleToJson r) = .ok (.ok r) := by
  obtain ⟨hid, hmetric, -, hlow, hhigh⟩ := h
  have hinterval : r.repeatIntervalSec.bmod (2 ^ 32) = r.repeatIntervalSec := by
    apply Int.bmod_eq_of_le <;> omega
  have hread : parseRule (ruleToJson r) = .ok (checkRule { r with
      greaterThan := true, repeatIntervalSec := r.repeatIntervalSec.bmod (2 ^ 32) }
        (if r.greaterThan then ">" else "<")) := by
    simp [parseRule, ruleToJson, Json.valueOf, Json.getString, Json.getDouble, Json.getInt, Json.getBool, bind,
      Except.bind, pure, Except.pure, hid]
  rw [hread, hinterval]
  have hop : ¬((if r.greaterThan then ">" else "<") ≠ ">" ∧ (if r.greaterThan then ">" else "<") ≠ "<") := by
    cases r.greaterThan <;> decide
  have hfield : ¬(!r.onFailure && r.metricField.isEmpty) = true := by
    simpa [or_iff_not_imp_left] using hmetric
  unfold checkRule
  rw [if_neg hop]
  dsimp only
  rw [if_neg hfield]
  cases r with
  | mk id name agentId checkType target metricField greaterThan => cases greaterThan <;> rfl

theorem parseRules_map {rules : List AlertRule} (h : ∀ r ∈ rules, r.Storable) :
    parseRules (rules.map ruleToJson) = .ok (.ok rules) := by
  induction rules with
  | nil => rfl
  | cons r rules ih =>
    have hrest := ih fun r' hr' => h r' (List.mem_cons_of_mem _ hr')
    rw [List.map_cons, parseRules, parseRule_ruleToJson (h r List.mem_cons_self), hrest]
    rfl

/-- The document is read back. -/
theorem loadDoc_rulesDoc {rules : List AlertRule} (h : ∀ r ∈ rules, r.Storable) (webhookUrl : String) :
    loadDoc (rulesDoc rules webhookUrl) = .ok (.ok (rules, webhookUrl)) := by
  have hrules : (rulesDoc rules webhookUrl).find? "rules" = some (.array (rules.map ruleToJson)) := by
    simp [rulesDoc]
  have hwebhook : (rulesDoc rules webhookUrl).valueOf Json.getString "webhook_url" "" = .ok webhookUrl := by
    simp [rulesDoc, Json.valueOf, Json.getString]
  have hdoc : docRules (rulesDoc rules webhookUrl) = .ok (.ok rules) := by
    rw [docRules, hrules]
    exact parseRules_map h
  rw [loadDoc, hdoc, hwebhook]
  rfl

theorem wellFormed_ruleToJson {r : AlertRule} (h : r.Storable) : (ruleToJson r).WellFormed := by
  unfold ruleToJson
  have hinterval : (Json.int r.repeatIntervalSec).WellFormed := by
    obtain ⟨hlow, hhigh⟩ := h.interval
    exact .int _ (by omega) (by omega)
  have hstring : ∀ s, (Json.string s).WellFormed := .string
  exact (((((((((((Json.WellFormed.null.set (hstring _) _).set (hstring _) _).set (hstring _) _).set (hstring _) _).set
    (hstring _) _).set (hstring _) _).set (hstring _) _).set (.float _ h.threshold) _).set hinterval _).set
    (hstring _) _).set (.bool _) _)

theorem wellFormed_rulesDoc {rules : List AlertRule} (h : ∀ r ∈ rules, r.Storable) (webhookUrl : String) :
    (rulesDoc rules webhookUrl).WellFormed := by
  refine (Json.WellFormed.null.set (.string _) _).set (.array _ fun j hj => ?_) _
  obtain ⟨r, hr, rfl⟩ := List.mem_map.1 hj
  exact wellFormed_ruleToJson (h r hr)

theorem storable_of_parseRules {items : List Json} {rules : List AlertRule} (hj : ∀ j ∈ items, j.WellFormed)
    (h : parseRules items = .ok (.ok rules)) : ∀ r ∈ rules, r.Storable := by
  induction items generalizing rules with
  | nil =>
    cases h
    exact nofun
  | cons j items ih =>
    obtain ⟨first, hfirst, h⟩ := bind_eq_ok.1 h
    cases first with
    | error error => cases h
    | ok rule =>
      obtain ⟨rest, hrest, h⟩ := bind_eq_ok.1 h
      cases rest with
      | error error => cases h
      | ok others =>
        cases h
        intro r hr
        rcases List.mem_cons.1 hr with rfl | hr
        · exact storable_of_parseRule (hj j List.mem_cons_self) hfirst
        · exact ih (fun j' hj' => hj j' (List.mem_cons_of_mem _ hj')) hrest r hr

theorem storable_of_loadDoc {doc : Json} {rules : List AlertRule} {webhookUrl : String} (hdoc : doc.WellFormed)
    (h : loadDoc doc = .ok (.ok (rules, webhookUrl))) : ∀ r ∈ rules, r.Storable := by
  obtain ⟨parsed, hparsed, h⟩ := bind_eq_ok.1 h
  cases parsed with
  | error error => cases h
  | ok parsed =>
    obtain ⟨webhook, -, h⟩ := bind_eq_ok.1 h
    cases h
    unfold docRules at hparsed
    split at hparsed
    · cases hparsed; exact nofun
    · cases hparsed; exact nofun
    · rename_i items hitems
      refine storable_of_parseRules (fun j hj => ?_) hparsed
      cases hdoc.find? hitems with
      | array _ h => exact h j hj
    · cases hparsed

/-! ## The file and the manager -/

section

variable (lib : JsonLib)

/-- With a path set, the file says what the manager holds. -/
def Mirrors (s : Store) : Prop :=
  s.manager.rulesPath ≠ "" → ∃ text, s.files s.manager.rulesPath = some text ∧
    readRules lib text = .ok (.ok (s.manager.rules, s.manager.webhookUrl))

/-- A call that returns false changes nothing. -/
def FalseChangesNothing (s : Store) (c : Call) : Prop :=
  ∀ error, (s.call lib c).1 = .failed error → (s.call lib c).2 = s

/-- Once the file is open, and so truncated, the document is printed and all of it is written. -/
def WriteAnswers.GoesThrough (a : WriteAnswers) (s : Store) (candidate : List AlertRule) : Prop :=
  s.manager.rulesPath ≠ "" → a.opens = true → a.good = true ∧ a.reached = none ∧
    ∃ text, lib.dump (rulesDoc candidate s.manager.webhookUrl) = .ok text

/-- The write of a call goes through. -/
def WriteGoesThrough (s : Store) : Call → Prop
  | .load _ _ => True
  | .upsert ruleJson a => ∀ doc rule, lib.parse ruleJson = .ok doc → parseRule doc = .ok (.ok rule) →
      a.GoesThrough lib s (upsertInto rule s.manager.rules)
  | .delete ruleId a => a.GoesThrough lib s (s.manager.rules.filter fun r => r.id ≠ ruleId)

/-- The file says what the manager holds, and its rules can be written. -/
structure StoreInv (s : Store) : Prop where
  storable : ∀ r ∈ s.manager.rules, r.Storable
  mirrors : Mirrors lib s

variable {lib} (hlib : lib.Lawful) {s : Store}

include hlib

/-- The rules of a text are storable. -/
theorem storable_of_readRules {text : String} {rules : List AlertRule} {webhookUrl : String}
    (h : readRules lib text = .ok (.ok (rules, webhookUrl))) : ∀ r ∈ rules, r.Storable := by
  unfold readRules at h
  split at h
  · cases h
  · cases h
  · rename_i doc hdoc
    exact storable_of_loadDoc (hlib.parse_wellFormed _ _ hdoc) h

/-- The text of a document is read back. -/
theorem readRules_dump {rules : List AlertRule} {webhookUrl text : String} (h : ∀ r ∈ rules, r.Storable)
    (hdump : lib.dump (rulesDoc rules webhookUrl) = .ok text) :
    readRules lib (text ++ "\n") = .ok (.ok (rules, webhookUrl)) := by
  have hparse := hlib.parse_dump _ _ (wellFormed_rulesDoc h webhookUrl) hdump
  unfold readRules
  rw [hparse]
  exact loadDoc_rulesDoc h webhookUrl

/-- A write that goes through leaves the candidate in the file; one that does not open it changes nothing. -/
theorem persist_spec {a : WriteAnswers} {candidate : List AlertRule} (h : ∀ r ∈ candidate, r.Storable)
    (hwrite : a.GoesThrough lib s candidate) :
    (∃ error, persist lib s a candidate = (.failed error, s)) ∨
      ∃ files, persist lib s a candidate = (.ok, { s with files := files }) ∧
        (s.manager.rulesPath ≠ "" → ∃ text, files s.manager.rulesPath = some text ∧
          readRules lib text = .ok (.ok (candidate, s.manager.webhookUrl))) := by
  unfold persist
  split
  · rename_i hpath
    exact .inr ⟨s.files, rfl, fun hne => absurd (String.isEmpty_iff.1 hpath) hne⟩
  · rename_i hpath
    have hne : s.manager.rulesPath ≠ "" := fun he => hpath (String.isEmpty_iff.2 he)
    unfold writeRulesFileLocked
    split
    · exact .inl ⟨_, rfl⟩
    · rename_i hopens
      obtain ⟨hgood, hreached, text, hdump⟩ := hwrite hne (by simpa using hopens)
      have hcontent : a.content (text ++ "\n") = text ++ "\n" := by rw [WriteAnswers.content, hreached]
      rw [hdump]
      dsimp only
      rw [hgood, hcontent]
      exact .inr ⟨_, rfl, fun _ => ⟨_, Function.update_self .., readRules_dump hlib h hdump⟩⟩

omit hlib in
theorem mem_upsertInto {rule r : AlertRule} {rules : List AlertRule} (h : r ∈ upsertInto rule rules) :
    r = rule ∨ r ∈ rules := by
  induction rules with
  | nil => exact .inl (List.mem_singleton.1 h)
  | cons r' rules ih =>
    unfold upsertInto at h
    split at h
    · rcases List.mem_cons.1 h with h | h
      · exact .inl h
      · exact .inr (List.mem_cons_of_mem _ h)
    · rcases List.mem_cons.1 h with h | h
      · exact .inr (h ▸ List.mem_cons_self)
      · exact (ih h).imp_right (List.mem_cons_of_mem _)

theorem StoreInv.load (h : StoreInv lib s) (path : String) (opens : Bool) :
    StoreInv lib (loadRulesFromFile lib s path opens).2 ∧ FalseChangesNothing lib s (.load path opens) := by
  show _ ∧ ∀ error, (loadRulesFromFile lib s path opens).1 = .failed error → (loadRulesFromFile lib s path opens).2 = s
  unfold loadRulesFromFile
  split
  · exact ⟨h, fun _ _ => rfl⟩
  · rename_i text htext
    have hfile : s.files path = some text := by
      cases opens
      · cases htext
      · exact htext
    unfold loadRulesFromJson
    cases hread : readRules lib text with
    | error e => exact ⟨⟨h.storable, h.mirrors⟩, nofun⟩
    | ok result =>
      cases result with
      | error error => exact ⟨⟨h.storable, h.mirrors⟩, fun _ _ => rfl⟩
      | ok loaded => exact ⟨⟨storable_of_readRules hlib hread, fun _ => ⟨text, hfile, hread⟩⟩, nofun⟩

theorem StoreInv.upsert (h : StoreInv lib s) {ruleJson : String} {a : WriteAnswers}
    (hwrite : WriteGoesThrough lib s (.upsert ruleJson a)) :
    StoreInv lib (upsertRule lib s ruleJson a).2 ∧ FalseChangesNothing lib s (.upsert ruleJson a) := by
  show _ ∧ ∀ error, (upsertRule lib s ruleJson a).1 = .failed error → (upsertRule lib s ruleJson a).2 = s
  unfold upsertRule
  split
  · exact ⟨h, fun _ _ => rfl⟩
  · exact ⟨h, fun _ _ => rfl⟩
  rename_i doc hdoc
  split
  · exact ⟨h, fun _ _ => rfl⟩
  split
  · exact ⟨h, fun _ _ => rfl⟩
  · exact ⟨h, fun _ _ => rfl⟩
  rename_i rule hrule
  dsimp only
  have hcandidate : ∀ r ∈ upsertInto rule s.manager.rules, r.Storable := by
    intro r hr
    rcases mem_upsertInto hr with rfl | hr
    · exact storable_of_parseRule (hlib.parse_wellFormed _ _ hdoc) hrule
    · exact h.storable r hr
  rcases persist_spec hlib hcandidate (hwrite doc rule hdoc hrule) with ⟨error, hfail⟩ | ⟨files, hok, hmirrors⟩
  · rw [hfail]
    exact ⟨h, fun _ _ => rfl⟩
  · rw [hok]
    exact ⟨⟨hcandidate, hmirrors⟩, nofun⟩

theorem StoreInv.delete (h : StoreInv lib s) {ruleId : String} {a : WriteAnswers}
    (hwrite : WriteGoesThrough lib s (.delete ruleId a)) :
    StoreInv lib (deleteRule lib s ruleId a).2 ∧ FalseChangesNothing lib s (.delete ruleId a) := by
  show _ ∧ ∀ error, (deleteRule lib s ruleId a).1 = .failed error → (deleteRule lib s ruleId a).2 = s
  unfold deleteRule
  split
  · exact ⟨h, fun _ _ => rfl⟩
  dsimp only
  split
  · exact ⟨h, fun _ _ => rfl⟩
  have hcandidate : ∀ r ∈ s.manager.rules.filter (fun r => r.id ≠ ruleId), r.Storable :=
    fun r hr => h.storable r (List.mem_filter.1 hr).1
  rcases persist_spec hlib hcandidate hwrite with ⟨error, hfail⟩ | ⟨files, hok, hmirrors⟩
  · rw [hfail]
    exact ⟨h, fun _ _ => rfl⟩
  · rw [hok]
    exact ⟨⟨hcandidate, hmirrors⟩, nofun⟩

/-- **One call.** -/
theorem StoreInv.call (h : StoreInv lib s) : ∀ {c : Call}, WriteGoesThrough lib s c →
    StoreInv lib (s.call lib c).2 ∧ FalseChangesNothing lib s c
  | .load path opens, _ => h.load hlib path opens
  | .upsert _ _, hwrite => h.upsert hlib hwrite
  | .delete _ _, hwrite => h.delete hlib hwrite

/-- **Main.** In every run in which each write that has opened the rules file goes through, the file says what the
manager holds whenever a path is set, and a call that returns false changes nothing. -/
theorem rulesFile_mirrors (files : String → Option String) (run : List Call)
    (hrun : Guarded (Store.step lib) (WriteGoesThrough lib) { files } run) :
    Always (Store.step lib) (Mirrors lib) { files } run ∧
      Guarded (Store.step lib) (FalseChangesNothing lib) { files } run := by
  have hinv : StoreInv lib { files } := ⟨nofun, fun hne => absurd rfl hne⟩
  have hstep : ∀ s c s', StoreInv lib s → WriteGoesThrough lib s c → s.step lib c = some s' → StoreInv lib s' := by
    intro s c s' h hwrite hs
    cases hs
    exact (h.call hlib hwrite).1
  exact ⟨always_of_guarded hstep (fun _ h => h.mirrors) hinv hrun,
    guarded_of_guarded hstep (fun _ _ _ h hwrite _ => (h.call hlib hwrite).2) hinv hrun⟩

end

/-! ## A rule comes and goes -/

def lossRule : AlertRule :=
  { id := "p1", name := "p1", metricField := "packet_loss_pct", threshold := .ofInt 5 }

def lossRuleText : String := "\x7b\"id\":\"p1\",\"metric\":\"packet_loss_pct\",\"threshold\":5\x7d"

def lossRuleJson : Json :=
  .object [("id", .string "p1"), ("metric", .string "packet_loss_pct"), ("threshold", .int 5)]

def emptyText : String := "\x7b\n  \"rules\": [],\n  \"webhook_url\": \"\"\n\x7d"

def lossText : String :=
  "\x7b\n  \"rules\": [\n    \x7b\n      \"agent_id\": \"\",\n      \"check_type\": \"\",\n" ++
  "      \"id\": \"p1\",\n      \"metric\": \"packet_loss_pct\",\n      \"name\": \"p1\",\n" ++
  "      \"on_failure\": false,\n      \"op\": \">\",\n      \"repeat_interval_sec\": 300,\n" ++
  "      \"severity\": \"warning\",\n      \"target\": \"\",\n      \"threshold\": 5.0\n    \x7d\n  ],\n" ++
  "  \"webhook_url\": \"\"\n\x7d"

/-- The library on these texts. -/
def tableParse (text : String) : Except JsonException Json :=
  if text = lossRuleText then .ok lossRuleJson
  else if text = emptyText ++ "\n" then .ok (rulesDoc [] "")
  else if text = lossText ++ "\n" then .ok (rulesDoc [lossRule] "")
  else .error (.parseError "syntax error")

def tableDump (j : Json) : Except JsonException String :=
  if j = rulesDoc [] "" then .ok emptyText
  else if j = rulesDoc [lossRule] "" then .ok lossText
  else .error (.typeError 316)

def tableLib : JsonLib := ⟨tableParse, tableDump⟩

theorem storable_lossRule : ∀ r ∈ [lossRule], r.Storable := by
  intro r hr
  rw [List.mem_singleton.1 hr]
  exact ⟨by decide, .inr (by decide), by decide, by decide⟩

theorem tableParse_lossRuleText : tableParse lossRuleText = .ok lossRuleJson := by
  rw [tableParse, if_pos rfl]

theorem tableParse_emptyText : tableParse (emptyText ++ "\n") = .ok (rulesDoc [] "") := by
  rw [tableParse, if_neg (by decide +kernel), if_pos rfl]

theorem tableParse_lossText : tableParse (lossText ++ "\n") = .ok (rulesDoc [lossRule] "") := by
  rw [tableParse, if_neg (by decide +kernel), if_neg (by decide +kernel), if_pos rfl]

theorem tableDump_lossRule : tableDump (rulesDoc [lossRule] "") = .ok lossText := by
  rw [tableDump, if_neg (by decide +kernel), if_pos rfl]

theorem lawful_tableLib : tableLib.Lawful where
  parse_wellFormed text j h := by
    simp only [tableLib, tableParse] at h
    split at h
    · cases h
      refine .object _ (by decide) fun m hm => ?_
      simp only [List.mem_cons, List.not_mem_nil, or_false] at hm
      rcases hm with rfl | rfl | rfl
      · exact .string _
      · exact .string _
      · exact .int _ (by decide) (by decide)
    split at h
    · cases h
      exact wellFormed_rulesDoc (List.forall_mem_nil _) ""
    split at h
    · cases h
      exact wellFormed_rulesDoc storable_lossRule ""
    · cases h
  parse_dump j text _ h := by
    simp only [tableLib, tableDump] at h ⊢
    split at h
    · rename_i hj
      rw [hj, ← Except.ok.inj h]
      exact tableParse_emptyText
    split at h
    · rename_i hj
      rw [hj, ← Except.ok.inj h]
      exact tableParse_lossText
    · cases h

theorem parseRule_lossRuleJson : parseRule lossRuleJson = .ok (.ok lossRule) := rfl

/-- A file with the empty rule set. -/
def emptyRules (path : String) : Option String := if path = "rules.json" then some (emptyText ++ "\n") else none

/-- The empty set is loaded, a rule is added, a delete cannot open the file, and the next one goes through. -/
theorem rulesFile_mirrors_loss :
    let run : List Call := [.load "rules.json" true, .upsert lossRuleText ⟨true, true, none⟩,
      .delete "p1" ⟨false, true, none⟩, .delete "p1" ⟨true, true, none⟩]
    (runEvents (Store.step tableLib) { files := emptyRules } run).map
          (fun s => (s.manager.rules, s.files "rules.json")) =
        some ([], some (emptyText ++ "\n")) ∧
      Always (Store.step tableLib) (Mirrors tableLib) { files := emptyRules } run ∧
      Guarded (Store.step tableLib) (FalseChangesNothing tableLib) { files := emptyRules } run := by
  intro run
  refine ⟨by decide +kernel, rulesFile_mirrors lawful_tableLib emptyRules run ?_⟩
  refine .cons rfl trivial (.cons rfl (fun doc rule hdoc hrule _ _ => ⟨rfl, rfl, lossText, ?_⟩)
    (.cons rfl (fun _ hopens => nomatch hopens) (.cons rfl (fun _ _ => ⟨rfl, rfl, emptyText, ?_⟩) trivial)))
  · cases tableParse_lossRuleText.symm.trans hdoc
    cases parseRule_lossRuleJson.symm.trans hrule
    exact tableDump_lossRule
  · decide +kernel

/-- The write of an added rule fails: the call returns false, and the file it truncated is empty. Or the write looks
good and the final flush fails: the call returns true, and the manager has a rule the file lacks. -/
theorem failed_write_loses_rules :
    let loaded := (({ files := emptyRules } : Store).call tableLib (.load "rules.json" true)).2
    let failing : Call := .upsert lossRuleText ⟨true, false, some 0⟩
    let unflushed : Call := .upsert lossRuleText ⟨true, true, some 0⟩
    ¬FalseChangesNothing tableLib loaded failing ∧
      ¬Always (Store.step tableLib) (Mirrors tableLib) { files := emptyRules } [.load "rules.json" true, failing] ∧
      ¬Always (Store.step tableLib) (Mirrors tableLib) { files := emptyRules }
        [.load "rules.json" true, unflushed] := by
  intro loaded failing unflushed
  have hempty : ∀ s : Store, s.manager.rulesPath = "rules.json" → s.files "rules.json" = some "" →
      ¬Mirrors tableLib s := by
    intro s hpath hfile hmirrors
    obtain ⟨text, htext, hread⟩ := hmirrors (by rw [hpath]; decide)
    rw [hpath, hfile] at htext
    cases htext
    cases hread
  refine ⟨fun hfalse => ?_, fun h => ?_, fun h => ?_⟩
  · have hsame := hfalse "error writing alert rules file: rules.json" (by decide +kernel)
    have hfile : ((loaded.call tableLib failing).2).files "rules.json" = some "" := by decide +kernel
    rw [hsame] at hfile
    exact absurd hfile (by decide +kernel)
  · exact hempty _ (by decide +kernel) (by decide +kernel) (h.last rfl)
  · exact hempty _ (by decide +kernel) (by decide +kernel) (h.last rfl)

end PudimNetMon.Alerting
