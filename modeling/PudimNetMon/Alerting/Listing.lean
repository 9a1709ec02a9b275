import Mathlib.Algebra.Ring.Int.Defs
import Mathlib.Algebra.Ring.Nat
import PudimNetMon.Alerting.Manager
import PudimNetMon.Lib.Separated

/-!
# What the alert manager reports (`alert_manager.cpp`)

`ActiveAlertsJson` splits each firing state's key at its first two separators, `AlertHistoryJson` walks the history from
its end. `Ack` is the third call that reads a state by its key.

- `forall_activeAlerts`: the active alerts are the firing keys, as they are split;
- `alertHistoryJson_eq`: the history is listed newest first, up to the given number of records.
-/

namespace PudimNetMon.Alerting

/-! ## Texts -/

/-- A character of `EscapeJson`. -/
def escapeJsonChar : Char → List Char
  | '"' => ['\\', '"']
  | '\\' => ['\\', '\\']
  | '\n' => ['\\', 'n']
  | '\r' => ['\\', 'r']
  | '\t' => ['\\', 't']
  | c => [c]

def escapeJson (s : String) : String := String.ofList (s.toList.flatMap escapeJsonChar)

/-- `v == static_cast<long long>(v)`. -/
def isWhole (v : Double) : Bool :=
  v.isFinite && decide (-2 ^ 63 ≤ v.trunc) && decide (v.trunc < 2 ^ 63) && decide ((Double.ofInt v.trunc).key = v.key)

/-- Without the zeros at the end of the decimals, and without the point if none is left. -/
def dropDecimals (s : String) : String :=
  match s.toList.reverse.dropWhile (· = '0') with
  | '.' :: cs => String.ofList cs.reverse
  | cs => String.ofList cs.reverse

def formatDouble (v : Double) : String :=
  if isWhole v then toString v.trunc else dropDecimals v.toFixed6

example : formatDouble (.ofInt 30) = "30" := by decide
example : formatDouble (.ofRatio 5 2) = "2.5" := by decide

/-- A quoted member of a JSON object. -/
def member (name value : String) : String := "\"" ++ name ++ "\":\"" ++ escapeJson value ++ "\","

def AlertRecord.toJson (r : AlertRecord) : String :=
  "\x7b" ++ member "rule_id" r.ruleId ++ member "rule_name" r.ruleName ++ member "agent_id" r.agentId ++
    member "check_type" r.checkType ++ member "target" r.target ++ member "severity" r.severity ++
    member "status" r.status ++ "\"value\":" ++ formatDouble r.value ++ "," ++ "\"threshold\":" ++
    formatDouble r.threshold ++ "," ++ member "detail" r.detail ++ "\"time_ms\":" ++ toString r.timeMs ++ "\x7d"

/-! ## Keys -/

def kSep : Char := '\x1f'

theorem stateKey_toList (ruleId agentId target : String) :
    (stateKey ruleId agentId target).toList = join3 kSep ruleId.toList agentId.toList target.toList := by
  simp [stateKey, kKeySep, kSep, join3]

/-- The fields of a key as `ActiveAlertsJson` takes them out by index; a separator that is not found has the largest
index. -/
def keyFields (key : String) : String × String × String :=
  match cut kSep key.toList with
  | none => (key, key, key)
  | some (ruleId, rest) =>
    match cut kSep rest with
    | none => (String.ofList ruleId, String.ofList rest, key)
    | some (agent, target) => (String.ofList ruleId, String.ofList agent, String.ofList target)

/-- Fields without a separator are taken out again; the target may hold some. -/
theorem keyFields_stateKey {ruleId agentId : String} (hr : kSep ∉ ruleId.toList) (ha : kSep ∉ agentId.toList)
    (target : String) : keyFields (stateKey ruleId agentId target) = (ruleId, agentId, target) := by
  unfold keyFields
  rw [stateKey_toList, join3, cut_append hr]
  simp only [cut_append ha, String.ofList_toList]

/-- The fields taken out of a state key make up the key, and the first two hold no separator. -/
theorem stateKey_keyFields {key ruleId agentId target : String} (h : key = stateKey ruleId agentId target) :
    stateKey (keyFields key).1 (keyFields key).2.1 (keyFields key).2.2 = key ∧
      kSep ∉ (keyFields key).1.toList ∧ kSep ∉ (keyFields key).2.1.toList := by
  have hcount : 2 ≤ key.toList.count kSep := by
    rw [h, stateKey_toList, count_join3]
    omega
  obtain ⟨r, rest, hkey, hr⟩ := split_of_mem (List.count_pos_iff.1 (by omega : 0 < key.toList.count kSep))
  have hrest : kSep ∈ rest := by
    rw [hkey, List.count_append, List.count_cons_self, List.count_eq_zero.2 hr] at hcount
    exact List.count_pos_iff.1 (by omega)
  obtain ⟨a, t, rfl, ha⟩ := split_of_mem hrest
  have hfields : keyFields key = (String.ofList r, String.ofList a, String.ofList t) := by
    unfold keyFields
    rw [hkey, cut_append hr]
    simp only [cut_append ha]
  rw [hfields]
  refine ⟨?_, by simpa using hr, by simpa using ha⟩
  apply String.toList_injective
  rw [stateKey_toList, hkey]
  simp [join3]

/-! ## Active alerts -/

/-- One entry of `ActiveAlertsJson`. -/
structure ActiveAlert where
  ruleId : String
  ruleName : String
  severity : String
  agentId : String
  target : String
  value : Double
  threshold : Option Double
  acknowledged : Bool
  firedMs : Int
  deriving DecidableEq, Repr

def ActiveAlert.toJson (a : ActiveAlert) : String :=
  "\x7b" ++ member "rule_id" a.ruleId ++ member "rule_name" a.ruleName ++ member "severity" a.severity ++
    member "agent_id" a.agentId ++ member "target" a.target ++ "\"value\":" ++ formatDouble a.value ++ "," ++
    "\"threshold\":" ++ (match a.threshold with | some t => formatDouble t | none => "0") ++ "," ++
    "\"acknowledged\":" ++ (if a.acknowledged then "true" else "false") ++ "," ++ "\"fired_ms\":" ++
    toString a.firedMs ++ "\x7d"

namespace AlertManager

def findRule (mgr : AlertManager) (id : String) : Option AlertRule := mgr.rules.find? fun r => r.id = id

def activeAlert (mgr : AlertManager) (key : String) (st : FiringState) : ActiveAlert :=
  let (ruleId, agentId, target) := keyFields key
  let rule := mgr.findRule ruleId
  { ruleId, agentId, target, ruleName := rule.elim ruleId AlertRule.name
    severity := rule.elim "unknown" AlertRule.severity, value := st.lastValue
    threshold := rule.map AlertRule.threshold, acknowledged := st.acknowledged, firedMs := st.firstFiredMs }

/-- The firing states, in the order of the map. -/
def activeAlerts (mgr : AlertManager) : List ActiveAlert :=
  (mgr.states.entries.filter fun e => e.2.firing).map fun e => mgr.activeAlert e.1 e.2

def activeAlertsJson (mgr : AlertManager) : String := "[" ++ ",".intercalate (mgr.activeAlerts.map (·.toJson)) ++ "]"

/-- `Ack` marks a firing alert that is not acknowledged yet. -/
def ack (mgr : AlertManager) (ruleId agentId target : String) : Bool × AlertManager :=
  let key := stateKey ruleId agentId target
  match mgr.states.lookup key with
  | none => (false, mgr)
  | some st =>
    if !st.firing || st.acknowledged then (false, mgr)
    else (true, { mgr with states := mgr.states.insert key { st with acknowledged := true } })

end AlertManager

theorem mem_entries_iff {s : States} {key : String} {st : FiringState} :
    ⟨key, st⟩ ∈ s.entries ↔ s.lookup key = some st := AList.mem_lookup_iff.symm

/-- A firing state is in the map. -/
theorem firing_iff {s : States} {key : String} :
    (stateAt s key).firing = true ↔ ∃ st, s.lookup key = some st ∧ st.firing = true := by
  unfold stateAt
  cases s.lookup key <;> simp

/-- **Active alerts.** They are the firing keys, as their fields are taken out. -/
theorem forall_activeAlerts {mgr : AlertManager} {P : String → String → String → Prop} :
    (∀ e ∈ mgr.activeAlerts, P e.ruleId e.agentId e.target) ↔
      ∀ key, (stateAt mgr.states key).firing = true →
        P (keyFields key).1 (keyFields key).2.1 (keyFields key).2.2 := by
  constructor
  · intro h key hfiring
    obtain ⟨st, hst, hf⟩ := firing_iff.1 hfiring
    exact h (mgr.activeAlert key st)
      (List.mem_map.2 ⟨⟨key, st⟩, List.mem_filter.2 ⟨mem_entries_iff.2 hst, hf⟩, rfl⟩)
  · intro h e he
    obtain ⟨⟨key, st⟩, hmem, rfl⟩ := List.mem_map.1 he
    obtain ⟨hmem, hf⟩ := List.mem_filter.1 hmem
    exact h key (firing_iff.2 ⟨st, mem_entries_iff.1 hmem, hf⟩)

/-- An acknowledgement changes the state of its key, and not whether it fires. -/
theorem ack_states (mgr : AlertManager) (ruleId agentId target : String) :
    (mgr.ack ruleId agentId target).2 = { mgr with states := (mgr.ack ruleId agentId target).2.states } ∧
      ∀ key, (stateAt (mgr.ack ruleId agentId target).2.states key).firing = (stateAt mgr.states key).firing := by
  unfold AlertManager.ack
  dsimp only
  split
  · exact ⟨rfl, fun _ => rfl⟩
  · rename_i st hst
    split
    · exact ⟨rfl, fun _ => rfl⟩
    · refine ⟨rfl, fun key => ?_⟩
      by_cases hk : key = stateKey ruleId agentId target
      · subst hk
        rw [stateAt_insert, stateAt, hst]
        rfl
      · rw [stateAt_insert_ne _ hk]

/-! ## History -/

/-- The loop of `AlertHistoryJson` over the history from its end. -/
def historyLoop (maxEvents : Nat) : List AlertRecord → Nat → String → String
  | [], _, json => json
  | r :: rs, count, json =>
    if count < maxEvents then
      historyLoop maxEvents rs (count + 1) ((if 0 < count then json ++ "," else json) ++ r.toJson)
    else json

def AlertManager.alertHistoryJson (mgr : AlertManager) (maxEvents : Nat) : String :=
  historyLoop maxEvents mgr.history.reverse 0 "[" ++ "]"

/-- The loop behind its first record. -/
theorem historyLoop_rest (maxEvents : Nat) (rs : List AlertRecord) {count : Nat} (h : 0 < count) (json : String) :
    historyLoop maxEvents rs count json =
      json ++ String.join ((rs.take (maxEvents - count)).map fun r => "," ++ r.toJson) := by
  induction rs generalizing count json with
  | nil => simp [historyLoop]
  | cons r rs ih =>
    unfold historyLoop
    by_cases hlt : count < maxEvents
    · have htake : maxEvents - count = (maxEvents - (count + 1)) + 1 := by omega
      rw [if_pos hlt, if_pos h, ih (Nat.succ_pos _), htake, List.take_succ_cons, List.map_cons]
      simp [String.append_assoc]
    · rw [if_neg hlt, Nat.sub_eq_zero_of_le (Nat.not_lt.1 hlt)]
      simp

theorem intercalate_cons (s : String) (ss : List String) :
    ",".intercalate (s :: ss) = s ++ String.join (ss.map ("," ++ ·)) := by
  induction ss generalizing s with
  | nil => simp
  | cons t ts ih =>
    rw [String.intercalate_cons_cons, ih, List.map_cons]
    simp [String.append_assoc]

/-- **History.** The last records are listed, the newest first, as many as asked for and there are. -/
theorem alertHistoryJson_eq (mgr : AlertManager) (maxEvents : Nat) :
    mgr.alertHistoryJson maxEvents =
      "[" ++ ",".intercalate ((mgr.history.reverse.take maxEvents).map AlertRecord.toJson) ++ "]" := by
  unfold AlertManager.alertHistoryJson
  cases mgr.history.reverse with
  | nil => simp [historyLoop]
  | cons r rs =>
    unfold historyLoop
    cases maxEvents with
    | zero => rfl
    | succ n =>
      rw [if_pos (Nat.succ_pos n), historyLoop_rest _ _ (Nat.succ_pos 0), List.take_succ_cons, List.map_cons,
        intercalate_cons]
      simp [Function.comp_def, String.append_assoc]

end PudimNetMon.Alerting
