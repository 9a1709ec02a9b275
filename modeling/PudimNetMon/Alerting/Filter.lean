import PudimNetMon.Alerting.RuleStore

/-!
# The check type filter of a rule (`alert_manager.cpp`)

A rule's `check_type` is a string. `ParseRule` takes any; `Evaluate` looks up the check type it names and passes over
the metrics of the others. A string that names none passes over no metric.

- `evalRule_unnamed`: such a rule is evaluated as if it had no `check_type`;
- `checkType_filter_iff`: a rule with a `check_type` acts on metrics of the named type only, exactly when one is named.
-/

namespace PudimNetMon.Alerting

/-- The visit changes the state of a key or gives out a notification. -/
def Acts (agentId : String) (now : Int) (s : EvalState) (x : WorkItem) : Prop :=
  (∃ key, stateAt (evalRule agentId now x.1 s x.2).states key ≠ stateAt s.states key) ∨
    (evalRule agentId now x.1 s x.2).notifications ≠ s.notifications

/-- In the `Evaluate` call, the rule acts on metrics of the check type that its string names only. -/
def ActsOnNamed (rule : AlertRule) (mgr : AlertManager) (agentId : String) (metrics : List Metric) (now : Int) : Prop :=
  ∀ pre m post, workItems mgr.rules metrics = pre ++ (m, rule) :: post →
    Acts agentId now (evalItems agentId now mgr.evalState pre) (m, rule) →
    checkTypeFromString rule.checkType = some m.checkType

theorem matchesCheckType_iff {r : AlertRule} {ct : CheckType} : r.matchesCheckType ct = true ↔
    r.checkType = "" ∨ checkTypeFromString r.checkType = none ∨ checkTypeFromString r.checkType = some ct := by
  unfold AlertRule.matchesCheckType
  rw [Bool.or_eq_true, String.isEmpty_iff]
  refine or_congr_right ?_
  cases checkTypeFromString r.checkType with
  | none => simp
  | some t => simp

/-- A rule that does not apply does not act. -/
theorem applies_of_acts {agentId : String} {now : Int} {s : EvalState} {x : WorkItem} (h : Acts agentId now s x) :
    x.2.applies agentId x.1 = true := by
  have hstep := evalRule_step agentId now x.1 x.2 s
  unfold Acts at h
  generalize evalRule agentId now x.1 s x.2 = t at h hstep
  cases hstep with
  | skip =>
    rcases h with ⟨key, hne⟩ | hne
    · exact absurd rfl hne
    · exact absurd rfl hne
  | fire happ => exact happ
  | renew happ => exact happ
  | resolve happ => exact happ
  | keep happ => exact happ

/-- A rule that names a check type acts on its metrics only. -/
theorem actsOnNamed_of_isSome {r : AlertRule} (hset : r.checkType ≠ "")
    (hname : (checkTypeFromString r.checkType).isSome) (mgr : AlertManager) (agentId : String)
    (metrics : List Metric) (now : Int) :
    ActsOnNamed r mgr agentId metrics now := by
  intro pre m post _ hacts
  have happ := applies_of_acts hacts
  unfold AlertRule.applies at happ
  rw [Bool.and_eq_true, Bool.and_eq_true] at happ
  rcases matchesCheckType_iff.1 happ.1.2 with hempty | hnone | hnamed
  · exact absurd hempty hset
  · rw [hnone] at hname
    cases hname
  · exact hnamed

/-- A string that names no check type filters as an empty one does. -/
theorem evalRule_unnamed {r : AlertRule} (h : checkTypeFromString r.checkType = none) (agentId : String) (now : Int)
    (m : Metric) (s : EvalState) :
    evalRule agentId now m s r = evalRule agentId now m s { r with checkType := "" } := by
  have happ : r.applies agentId m = { r with checkType := "" }.applies agentId m := by
    have hleft : r.matchesCheckType m.checkType = true := matchesCheckType_iff.2 (.inr (.inl h))
    have hright : { r with checkType := "" }.matchesCheckType m.checkType = true :=
      matchesCheckType_iff.2 (.inl rfl)
    unfold AlertRule.applies
    rw [hleft, hright]
    rfl
  unfold evalRule
  rw [happ]
  rfl

/-- A metric that no rule is violated by. -/
def quietMetric (target : String) (ct : CheckType) : Metric := { checkType := ct, target, success := true }

theorem verdict_quietMetric (r : AlertRule) (target : String) (ct : CheckType) :
    (verdict r (quietMetric target ct)).violated = false := by
  have hvalue : getMetricValue (quietMetric target ct) r.metricField = none := by
    simp [getMetricValue, quietMetric, Metric.latencyMs, Metric.packetLossPct, Metric.jitterMs, Metric.rttMs]
  unfold verdict
  split
  · rfl
  · rw [hvalue]
    rfl

/-- The rule resolves an alert of its own on a metric that passes its filters. -/
theorem acts_of_applies {r : AlertRule} {ct : CheckType} (h : r.matchesCheckType ct = true) (now : Int) :
    let mgr : AlertManager :=
      { rules := [r], states := AList.insert (stateKey r.id r.agentId r.target) { firing := true } ∅ }
    Acts r.agentId now mgr.evalState (quietMetric r.target ct, r) := by
  intro mgr
  have happ : r.applies r.agentId (quietMetric r.target ct) = true := by
    unfold AlertRule.applies
    rw [show (quietMetric r.target ct).checkType = ct from rfl, h]
    simp [AlertRule.matchesAgent, AlertRule.matchesTarget, quietMetric]
  have hfiring : (stateAt mgr.evalState.states (stateKey r.id r.agentId r.target)).firing = true := by
    have hstate := stateAt_insert ∅ (stateKey r.id r.agentId r.target) { firing := true }
    exact congrArg FiringState.firing hstate
  have hhit : WorkItem.hits r.agentId (stateKey r.id r.agentId r.target) (quietMetric r.target ct, r) = true :=
    WorkItem.hits_iff.2 ⟨happ, rfl⟩
  have hquiet := evalRule_firing now mgr.evalState hhit
  refine .inl ⟨stateKey r.id r.agentId r.target, fun he => ?_⟩
  rw [he, hfiring, verdict_quietMetric] at hquiet
  cases hquiet

/-- **The filter.** A rule with a `check_type` acts on metrics of the named check type only, in every `Evaluate` call,
exactly when its string names one. -/
theorem checkType_filter_iff {r : AlertRule} (h : r.checkType ≠ "") :
    (∀ mgr agentId metrics now, ActsOnNamed r mgr agentId metrics now) ↔ (checkTypeFromString r.checkType).isSome := by
  refine ⟨fun hall => ?_, fun hname mgr agentId metrics now => actsOnNamed_of_isSome h hname mgr agentId metrics now⟩
  cases hname : checkTypeFromString r.checkType with
  | some t => rfl
  | none =>
    have hacts := acts_of_applies (matchesCheckType_iff.2 (.inr (.inl hname)) : r.matchesCheckType .jitter = true) 0
    have hnamed := hall _ r.agentId [quietMetric r.target .jitter] 0 [] _ [] rfl hacts
    rw [hname] at hnamed
    cases hnamed

/-- `icmp_ping` is one. -/
theorem checkType_filter_iff_ping :
    let rule : AlertRule := { id := "loss", name := "loss", checkType := "icmp_ping", metricField := "packet_loss_pct" }
    rule.checkType ≠ "" ∧ ∀ mgr agentId metrics now, ActsOnNamed rule mgr agentId metrics now := by
  intro rule
  have hset : rule.checkType ≠ "" := by decide
  exact ⟨hset, (checkType_filter_iff hset).2 (by decide)⟩

/-- `icmp` is no check type: the rule is accepted, and fires on a failed DNS lookup. -/
theorem misspelled_type_filters_nothing :
    let doc : Json := .object [("check_type", .string "icmp"), ("id", .string "down"), ("on_failure", .bool true)]
    let rule : AlertRule := { id := "down", name := "down", checkType := "icmp", onFailure := true }
    let lookup : Metric := { checkType := .dnsResolution, target := "example.org" }
    let mgr : AlertManager := { rules := [rule] }
    parseRule doc = .ok (.ok rule) ∧
      (stateAt (mgr.evaluate "edge" [lookup] 1000).1.states (stateKey "down" "edge" "example.org")).firing = true ∧
      ¬ActsOnNamed rule mgr "edge" [lookup] 1000 ∧
      ¬∀ doc rule, parseRule doc = .ok (.ok rule) → rule.checkType ≠ "" →
        ∀ mgr agentId metrics now, ActsOnNamed rule mgr agentId metrics now := by
  intro doc rule lookup mgr
  have hparse : parseRule doc = .ok (.ok rule) := rfl
  have hset : rule.checkType ≠ "" := by decide
  have hname : checkTypeFromString rule.checkType = none := by decide
  have hacts : Acts "edge" 1000 mgr.evalState (lookup, rule) := by
    refine .inr fun hnone => ?_
    have hlength := congrArg List.length hnone
    exact absurd hlength (by decide)
  have hnot : ¬ActsOnNamed rule mgr "edge" [lookup] 1000 := fun h => by
    have hnamed := h [] lookup [] rfl hacts
    rw [hname] at hnamed
    cases hnamed
  exact ⟨hparse, by decide, hnot, fun h => hnot (h doc rule hparse hset mgr "edge" [lookup] 1000)⟩

end PudimNetMon.Alerting
