import Mathlib.Data.List.AList
import PudimNetMon.Alerting.Rule

/-!
# The alert manager's state machine (`alert_manager.cpp`)

`AlertManager` holds the rules, one `FiringState` per state key, the bounded history and the rules file's path and
webhook. `evaluate` is the loop over metrics and rules: `evalRule` is its body, `verdict` the part of the body that
decides whether the rule is violated, `applies` the three filters in front of it.

The loop is one fold over `workItems`, the pairs of a metric and a rule in the order the two loops visit them
(`evaluate_items`); `stateAt` reads the state of a key, the default one when the map has none, as `operator[]` does.
-/

namespace PudimNetMon.Alerting

structure FiringState where
  firing : Bool := false
  acknowledged : Bool := false
  firstFiredMs : Int := 0
  lastNotifiedMs : Int := 0
  lastValue : Double := .zero
  lastDetail : String := ""
  deriving DecidableEq, Repr

/-- One transition shown in the alert history; `status` is `"firing"` or `"resolved"`. -/
structure AlertRecord where
  ruleId : String
  ruleName : String
  agentId : String
  checkType : String
  target : String
  severity : String
  status : String
  value : Double
  threshold : Double
  detail : String
  timeMs : Int
  deriving DecidableEq, Repr

structure AlertNotification where
  ruleId : String
  ruleName : String
  severity : String
  agentId : String
  checkType : String
  target : String
  status : String
  value : Double
  threshold : Double
  detail : String
  timeMs : Int
  deriving DecidableEq, Repr

/-- Where notifications go: the log, the rules file's webhook, or one added by `AddNotifier`. -/
inductive Notifier
  | log
  | webhook (url : String)
  | added (n : Nat)
  deriving DecidableEq, Repr

/-- `m_states`. -/
abbrev States := AList (fun _ : String => FiringState)

structure AlertManager where
  rules : List AlertRule := []
  states : States := ∅
  notifiers : List Notifier := []
  history : List AlertRecord := []
  alertsFiredTotal : Nat := 0
  rulesPath : String := ""
  webhookUrl : String := ""

def kMaxHistory : Nat := 1000

def kKeySep : String := "\x1f"

def stateKey (ruleId agentId target : String) : String := ruleId ++ kKeySep ++ agentId ++ kKeySep ++ target

/-- The newest `kMaxHistory` records. -/
def trimHistory (h : List AlertRecord) : List AlertRecord :=
  if kMaxHistory < h.length then h.drop (h.length - kMaxHistory) else h

def makeRecordFor (rule : AlertRule) (agentId : String) (m : Metric) (value : Double) (status : String)
    (now : Int) : AlertRecord :=
  { ruleId := rule.id, ruleName := rule.name, agentId := agentId, checkType := checkTypeToString m.checkType,
    target := m.target, severity := rule.severity, status := status, value := value, threshold := rule.threshold,
    detail := m.detail, timeMs := now }

def makeNotification (r : AlertRecord) : AlertNotification :=
  { ruleId := r.ruleId, ruleName := r.ruleName, severity := r.severity, agentId := r.agentId,
    checkType := r.checkType, target := r.target, status := r.status, value := r.value, threshold := r.threshold,
    detail := r.detail, timeMs := r.timeMs }

/-! ## The loop body -/

/-- What `Evaluate` changes while it holds the lock. -/
structure EvalState where
  states : States
  history : List AlertRecord
  alertsFiredTotal : Nat
  notifications : List AlertNotification := []

/-- The check type filter: a string that names no check type filters nothing. -/
def AlertRule.matchesCheckType (r : AlertRule) (ct : CheckType) : Bool :=
  r.checkType.isEmpty ||
    match checkTypeFromString r.checkType with
    | some t => t == ct
    | none => true

/-- The three filters in front of the loop body. -/
def AlertRule.applies (r : AlertRule) (agentId : String) (m : Metric) : Bool :=
  r.matchesAgent agentId && r.matchesCheckType m.checkType && r.matchesTarget m.target

/-- `violated`, `value` and `detail`. -/
structure Verdict where
  violated : Bool := false
  value : Double := .zero
  detail : String := ""

def verdict (rule : AlertRule) (m : Metric) : Verdict :=
  if rule.onFailure then
    if !m.success then { violated := true, detail := m.detail } else {}
  else if m.success then
    match getMetricValue m rule.metricField with
    | some v => { violated := if rule.greaterThan then rule.threshold.lt v else v.lt rule.threshold, value := v }
    | none => {}
  else {}

/-- The state of a key; the map's default when it has none. -/
def stateAt (s : States) (key : String) : FiringState := (s.lookup key).getD {}

/-- Store the state, append the record to the history and queue its notification. -/
def EvalState.emit (s : EvalState) (key : String) (st : FiringState) (record : AlertRecord) (fired : Nat) : EvalState :=
  { states := s.states.insert key st
    history := trimHistory (s.history ++ [record])
    alertsFiredTotal := s.alertsFiredTotal + fired
    notifications := s.notifications ++ [makeNotification record] }

/-- The assignments of the first firing. -/
def FiringState.fire (st : FiringState) (now : Int) (v : Verdict) : FiringState :=
  { st with firing := true, firstFiredMs := now, lastNotifiedMs := now, lastValue := v.value, lastDetail := v.detail }

/-- The assignments of a repeat notification. -/
def FiringState.renew (st : FiringState) (now : Int) (v : Verdict) : FiringState :=
  { st with lastNotifiedMs := now, lastValue := v.value, lastDetail := v.detail }

/-- The record of a resolved alert: the last value and detail it fired with. -/
def resolvedRecord (rule : AlertRule) (agentId : String) (m : Metric) (st : FiringState) (now : Int) : AlertRecord :=
  { makeRecordFor rule agentId m st.lastValue "resolved" now with detail := st.lastDetail }

/-- The loop body: one rule on one metric. -/
def evalRule (agentId : String) (now : Int) (m : Metric) (s : EvalState) (rule : AlertRule) : EvalState :=
  if rule.applies agentId m then
    let key := stateKey rule.id agentId m.target
    let st := stateAt s.states key
    let v := verdict rule m
    if v.violated then
      if !st.firing then s.emit key (st.fire now v) (makeRecordFor rule agentId m v.value "firing" now) 1
      else if rule.repeatIntervalSec * 1000 ≤ now - st.lastNotifiedMs then
        s.emit key (st.renew now v) (makeRecordFor rule agentId m v.value "firing" now) 1
      else { s with states := s.states.insert key st }
    -- A metric without a value comes here too: `violated` is false for it.
    else if st.firing then s.emit key {} (resolvedRecord rule agentId m st now) 0
    else { s with states := s.states.insert key st }
  else s

/-- `Evaluate` at the clock reading `now`: the new manager and what each notifier is sent. -/
def AlertManager.evaluate (mgr : AlertManager) (agentId : String) (metrics : List Metric) (now : Int) :
    AlertManager × List (AlertNotification × Notifier) :=
  if mgr.rules.isEmpty then (mgr, [])
  else
    let s := metrics.foldl (fun s m => mgr.rules.foldl (evalRule agentId now m) s)
      { states := mgr.states, history := mgr.history, alertsFiredTotal := mgr.alertsFiredTotal }
    ({ mgr with states := s.states, history := s.history, alertsFiredTotal := s.alertsFiredTotal },
      s.notifications.flatMap fun a => mgr.notifiers.map fun n => (a, n))

/-! ## The loop as one fold -/

/-- One visit of the loop body. -/
abbrev WorkItem := Metric × AlertRule

/-- The visits of the two nested loops, in order. -/
def workItems (rules : List AlertRule) (metrics : List Metric) : List WorkItem :=
  metrics.flatMap fun m => rules.map fun r => (m, r)

/-- The state before the first visit. -/
def AlertManager.evalState (mgr : AlertManager) : EvalState :=
  { states := mgr.states, history := mgr.history, alertsFiredTotal := mgr.alertsFiredTotal }

/-- The loop body over a list of visits. -/
def evalItems (agentId : String) (now : Int) (s : EvalState) (items : List WorkItem) : EvalState :=
  items.foldl (fun s x => evalRule agentId now x.1 s x.2) s

@[simp] theorem evalItems_nil (agentId : String) (now : Int) (s : EvalState) : evalItems agentId now s [] = s := rfl

@[simp] theorem evalItems_cons (agentId : String) (now : Int) (s : EvalState) (x : WorkItem) (xs : List WorkItem) :
    evalItems agentId now s (x :: xs) = evalItems agentId now (evalRule agentId now x.1 s x.2) xs := rfl

theorem evalItems_append (agentId : String) (now : Int) (s : EvalState) (xs ys : List WorkItem) :
    evalItems agentId now s (xs ++ ys) = evalItems agentId now (evalItems agentId now s xs) ys :=
  List.foldl_append ..

theorem foldl_workItems (agentId : String) (now : Int) (rules : List AlertRule) (metrics : List Metric)
    (s : EvalState) : metrics.foldl (fun s m => rules.foldl (evalRule agentId now m) s) s =
      evalItems agentId now s (workItems rules metrics) := by
  induction metrics generalizing s with
  | nil => rfl
  | cons m ms ih =>
    have hm : rules.foldl (evalRule agentId now m) s = evalItems agentId now s (rules.map fun r => (m, r)) := by
      simp [evalItems, List.foldl_map]
    rw [List.foldl_cons, ih, hm, ← evalItems_append]
    rfl

theorem workItems_no_rules (metrics : List Metric) : workItems [] metrics = [] := by
  simp [workItems]

/-- The manager's state after `Evaluate`, as a run over the visits. -/
theorem evaluate_items (mgr : AlertManager) (agentId : String) (metrics : List Metric) (now : Int) :
    (mgr.evaluate agentId metrics now).1.evalState =
      { evalItems agentId now mgr.evalState (workItems mgr.rules metrics) with notifications := [] } := by
  unfold AlertManager.evaluate
  split
  · rename_i h
    have hr : mgr.rules = [] := by simpa using h
    simp [hr, workItems_no_rules, AlertManager.evalState]
  · simp only [AlertManager.evalState, foldl_workItems]

/-! ## States -/

@[simp] theorem stateAt_insert (s : States) (key : String) (st : FiringState) :
    stateAt (s.insert key st) key = st := by
  simp [stateAt, AList.lookup_insert]

theorem stateAt_insert_ne {s : States} {key key' : String} (st : FiringState) (h : key' ≠ key) :
    stateAt (s.insert key st) key' = stateAt s key' := by
  simp [stateAt, AList.lookup_insert_ne h]

/-- What one visit can do. -/
inductive EvalStep (agentId : String) (now : Int) (m : Metric) (r : AlertRule) (s : EvalState) : EvalState → Prop
  | skip : r.applies agentId m = false → EvalStep agentId now m r s s
  | fire : r.applies agentId m = true → (verdict r m).violated = true →
      (stateAt s.states (stateKey r.id agentId m.target)).firing = false →
      EvalStep agentId now m r s (s.emit (stateKey r.id agentId m.target)
        ((stateAt s.states (stateKey r.id agentId m.target)).fire now (verdict r m))
        (makeRecordFor r agentId m (verdict r m).value "firing" now) 1)
  | renew : r.applies agentId m = true → (verdict r m).violated = true →
      (stateAt s.states (stateKey r.id agentId m.target)).firing = true →
      r.repeatIntervalSec * 1000 ≤ now - (stateAt s.states (stateKey r.id agentId m.target)).lastNotifiedMs →
      EvalStep agentId now m r s (s.emit (stateKey r.id agentId m.target)
        ((stateAt s.states (stateKey r.id agentId m.target)).renew now (verdict r m))
        (makeRecordFor r agentId m (verdict r m).value "firing" now) 1)
  | resolve : r.applies agentId m = true → (verdict r m).violated = false →
      (stateAt s.states (stateKey r.id agentId m.target)).firing = true →
      EvalStep agentId now m r s (s.emit (stateKey r.id agentId m.target) {}
        (resolvedRecord r agentId m (stateAt s.states (stateKey r.id agentId m.target)) now) 0)
  /-- Throttled, or not violated and not firing: the state stays, its map entry is created. -/
  | keep : r.applies agentId m = true →
      (stateAt s.states (stateKey r.id agentId m.target)).firing = (verdict r m).violated →
      EvalStep agentId now m r s { s with
        states := s.states.insert (stateKey r.id agentId m.target) (stateAt s.states (stateKey r.id agentId m.target)) }

/-- What a rule does with a metric is one of the steps. -/
theorem evalRule_step (agentId : String) (now : Int) (m : Metric) (r : AlertRule) (s : EvalState) :
    EvalStep agentId now m r s (evalRule agentId now m s r) := by
  simp only [evalRule]
  cases ha : r.applies agentId m with
  | false => simpa using EvalStep.skip ha
  | true =>
    cases hv : (verdict r m).violated <;>
      cases hf : (stateAt s.states (stateKey r.id agentId m.target)).firing
    case false.false => simpa using EvalStep.keep ha (hf.trans hv.symm)
    case false.true => simpa using EvalStep.resolve ha hv hf
    case true.false => simpa using EvalStep.fire ha hv hf
    case true.true =>
      by_cases ht : r.repeatIntervalSec * 1000 ≤
          now - (stateAt s.states (stateKey r.id agentId m.target)).lastNotifiedMs
      · simpa [ht] using EvalStep.renew ha hv hf ht
      · simpa [ht] using EvalStep.keep ha (hf.trans hv.symm)

/-- Whether the rule's visit of the metric reaches the state of `key`. -/
def WorkItem.hits (agentId key : String) (x : WorkItem) : Bool :=
  x.2.applies agentId x.1 && stateKey x.2.id agentId x.1.target == key

theorem WorkItem.hits_iff {agentId key : String} {x : WorkItem} :
    x.hits agentId key = true ↔ x.2.applies agentId x.1 = true ∧ stateKey x.2.id agentId x.1.target = key := by
  simp [WorkItem.hits]

/-- A visit only changes the state of the key it hits. -/
theorem evalRule_frame {agentId key : String} {x : WorkItem} (now : Int) (s : EvalState)
    (h : x.hits agentId key = false) : stateAt (evalRule agentId now x.1 s x.2).states key = stateAt s.states key := by
  have hne : x.2.applies agentId x.1 = true → key ≠ stateKey x.2.id agentId x.1.target := by
    intro ha e
    rw [WorkItem.hits_iff.2 ⟨ha, e.symm⟩] at h
    cases h
  have hs := evalRule_step agentId now x.1 x.2 s
  generalize evalRule agentId now x.1 s x.2 = t at hs ⊢
  cases hs with
  | skip => rfl
  | fire ha => exact stateAt_insert_ne _ (hne ha)
  | renew ha => exact stateAt_insert_ne _ (hne ha)
  | resolve ha => exact stateAt_insert_ne _ (hne ha)
  | keep ha => exact stateAt_insert_ne _ (hne ha)

/-- A visit leaves its key firing exactly when the rule is violated. -/
theorem evalRule_firing {agentId key : String} {x : WorkItem} (now : Int) (s : EvalState)
    (h : x.hits agentId key = true) :
    (stateAt (evalRule agentId now x.1 s x.2).states key).firing = (verdict x.2 x.1).violated := by
  obtain ⟨ha, rfl⟩ := WorkItem.hits_iff.1 h
  have hs := evalRule_step agentId now x.1 x.2 s
  generalize evalRule agentId now x.1 s x.2 = t at hs ⊢
  cases hs with
  | skip h' => rw [ha] at h'; cases h'
  | fire _ hv => simp [EvalState.emit, FiringState.fire, hv]
  | renew _ hv hf => simp [EvalState.emit, FiringState.renew, hv, hf]
  | resolve _ hv => simp [EvalState.emit, hv]
  | keep _ hk => simpa using hk

end PudimNetMon.Alerting
