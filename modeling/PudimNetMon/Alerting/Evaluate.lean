import Mathlib.Data.List.Induction
import PudimNetMon.Agent.Icmp
import PudimNetMon.Alerting.Manager

/-!
# What a metric without a value does to a threshold rule

A field-based rule should neither fire nor resolve on a metric that failed or lacks its field. The loop body has no
branch for such a metric: it takes the branch of a value within bounds, which resolves a firing state. So the state
stays exactly when it is not firing (`evaluate_valueless_iff`).

`firing_evalItems` says which states fire after a run of visits: the last visit that reached the key decides. It gives
the flag of a state before each visit from the batch alone (`firingBefore`).
-/

namespace PudimNetMon.Alerting

open PudimNetMon.Agent

/-! ## The last visit decides -/

/-- The firing flag of `key` after the visits: the verdict of the last one that reached it, or the flag before. -/
def firingBefore (agentId key : String) (xs : List WorkItem) (firing : Bool) : Bool :=
  match xs.reverse.find? (·.hits agentId key) with
  | some x => (verdict x.2 x.1).violated
  | none => firing

theorem firingBefore_snoc (agentId key : String) (xs : List WorkItem) (x : WorkItem) (b : Bool) :
    firingBefore agentId key (xs ++ [x]) b =
      if x.hits agentId key then (verdict x.2 x.1).violated else firingBefore agentId key xs b := by
  unfold firingBefore
  rw [List.reverse_append, List.reverse_singleton, List.singleton_append, List.find?_cons]
  cases x.hits agentId key <;> rfl

/-- The firing flag after a run of visits. -/
theorem firing_evalItems (agentId key : String) (now : Int) (s : EvalState) (xs : List WorkItem) :
    (stateAt (evalItems agentId now s xs).states key).firing =
      firingBefore agentId key xs (stateAt s.states key).firing := by
  induction xs using List.reverseRecOn with
  | nil => rfl
  | append_singleton xs x ih =>
    rw [evalItems_append, firingBefore_snoc]
    simp only [evalItems_cons, evalItems_nil]
    cases hx : x.hits agentId key with
    | true => simpa using evalRule_firing now _ hx
    | false => rw [evalRule_frame now _ hx, ih]; rfl

/-- Visits that reach the key without a violation leave it quiet, if there is one of them. -/
theorem firingBefore_quiet {agentId key : String} {xs : List WorkItem} {x : WorkItem} (b : Bool) (hx : x ∈ xs)
    (hit : x.hits agentId key = true)
    (hq : ∀ y ∈ xs, y.hits agentId key = true → (verdict y.2 y.1).violated = false) :
    firingBefore agentId key xs b = false := by
  unfold firingBefore
  split
  · rename_i y hy
    have hm := List.mem_of_find?_eq_some hy
    exact hq y (List.mem_reverse.1 hm) (List.find?_some hy)
  · rename_i hn
    have := List.find?_eq_none.1 hn x (List.mem_reverse.2 hx)
    exact absurd hit this

/-! ## Metrics without a value -/

/-- The metric failed or does not carry the field of a rule that is not an on-failure rule. -/
def Valueless (r : AlertRule) (m : Metric) : Prop :=
  r.onFailure = false ∧ (m.success = false ∨ getMetricValue m r.metricField = none)

theorem Valueless.not_violated {r : AlertRule} {m : Metric} (h : Valueless r m) : (verdict r m).violated = false := by
  obtain ⟨hf, hs | hg⟩ := h
  · simp [verdict, hf, hs]
  · cases hs : m.success <;> simp [verdict, hf, hg, hs]

/-- The visit of a metric without a value keeps the state of its key exactly when the state is not firing. -/
theorem evalRule_valueless_iff {agentId : String} {m : Metric} {r : AlertRule} (now : Int) (s : EvalState)
    (h : Valueless r m) :
    stateAt (evalRule agentId now m s r).states (stateKey r.id agentId m.target) =
        stateAt s.states (stateKey r.id agentId m.target) ↔
      (r.applies agentId m = true → (stateAt s.states (stateKey r.id agentId m.target)).firing = false) := by
  have hv := h.not_violated
  have hs := evalRule_step agentId now m r s
  generalize evalRule agentId now m s r = t at hs ⊢
  cases hs with
  | skip ha => simp [ha]
  | fire _ hv' => rw [hv] at hv'; cases hv'
  | renew _ hv' => rw [hv] at hv'; cases hv'
  | resolve ha _ hf =>
    refine ⟨fun e => ?_, fun e => absurd (e ha) (by simp [hf])⟩
    simp only [EvalState.emit, stateAt_insert] at e
    rw [← e] at hf
    cases hf
  | keep ha hk => simp [hk, hv]

section

variable (mgr : AlertManager) (agentId : String) (metrics : List Metric) (now : Int)

/-- In the `Evaluate` call, every visit of a metric without a value keeps the rule's state for the metric's agent and
target. -/
def ValuelessKept : Prop :=
  ∀ pre m r post, workItems mgr.rules metrics = pre ++ (m, r) :: post → Valueless r m →
    stateAt (evalItems agentId now mgr.evalState (pre ++ [(m, r)])).states (stateKey r.id agentId m.target) =
      stateAt (evalItems agentId now mgr.evalState pre).states (stateKey r.id agentId m.target)

/-- No metric without a value meets a firing state of a rule that applies to it. -/
def ValuelessMeetsQuiet : Prop :=
  ∀ pre m r post, workItems mgr.rules metrics = pre ++ (m, r) :: post → Valueless r m → r.applies agentId m = true →
    firingBefore agentId (stateKey r.id agentId m.target) pre
      (stateAt mgr.states (stateKey r.id agentId m.target)).firing = false

variable {mgr agentId metrics now}

theorem valuelessKept_iff : ValuelessKept mgr agentId metrics now ↔ ValuelessMeetsQuiet mgr agentId metrics := by
  unfold ValuelessKept ValuelessMeetsQuiet
  refine forall_congr' fun pre => forall_congr' fun m => forall_congr' fun r => forall_congr' fun post =>
    imp_congr_right fun _ => imp_congr_right fun hv => ?_
  rw [evalItems_append, evalItems_cons, evalItems_nil, evalRule_valueless_iff now _ hv, firing_evalItems]
  rfl

/-- A rule on the packet loss that applies to the loss metric of an ICMP probe is quiet after the probe's metrics: the
rtt metric passes the same filters and carries no loss. -/
theorem icmp_quiet (stats : IcmpStats) (host : String) (us : Int × Int × Int) (p : Pinged) {r : AlertRule}
    (hr : r ∈ mgr.rules) (hf : r.onFailure = false) (hm : r.metricField = "packet_loss_pct")
    (halone : ∀ r' ∈ mgr.rules, stateKey r'.id agentId host = stateKey r.id agentId host → r' = r)
    (happ : r.applies agentId (runIcmpProbe stats host us p).loss = true) :
    (stateAt (mgr.evaluate agentId (runIcmpProbe stats host us p).metrics now).1.states
      (stateKey r.id agentId host)).firing = false := by
  obtain ⟨hrtt, hjit⟩ := runIcmpProbe_loss_only stats host us p
  have htarget := runIcmpProbe_targets stats host us p
  have hct := runIcmpProbe_checkType stats host us p
  generalize runIcmpProbe stats host us p = res at *
  simp only [IcmpResult.metrics, List.mem_cons, List.not_mem_nil, or_false, forall_eq_or_imp, forall_eq] at htarget
  obtain ⟨hl, ht, hj⟩ := htarget
  have hval : ∀ m, m.packetLossPct = none → Valueless r m := by
    intro m hn
    exact ⟨hf, .inr (by simp [getMetricValue, hm, hn])⟩
  have happ' : r.applies agentId res.rtt = true := by
    simpa [AlertRule.applies, hl, ht, hct] using happ
  have hst := congrArg EvalState.states (evaluate_items mgr agentId res.metrics now)
  simp only [AlertManager.evalState] at hst
  rw [hst]
  have hsplit : workItems mgr.rules res.metrics =
      workItems mgr.rules [res.loss] ++ workItems mgr.rules [res.rtt, res.jitter] := by
    simp [workItems, IcmpResult.metrics]
  rw [hsplit, evalItems_append]
  refine (firing_evalItems ..).trans (firingBefore_quiet (x := (res.rtt, r)) _ ?_ ?_ ?_)
  · simp [workItems, hr]
  · exact WorkItem.hits_iff.2 ⟨happ', by rw [ht]⟩
  · -- every visit that reaches the key is one of `r`, on a metric without a loss
    rintro ⟨m, r'⟩ hy hit
    have hk := (WorkItem.hits_iff.1 hit).2
    simp only [workItems, List.flatMap_cons, List.flatMap_nil, List.append_nil, List.mem_append, List.mem_map,
      Prod.mk.injEq] at hy
    rcases hy with ⟨r'', hr'', rfl, rfl⟩ | ⟨r'', hr'', rfl, rfl⟩
    · rw [halone _ hr'' (by simpa [ht] using hk)]
      exact (hval _ hrtt).not_violated
    · rw [halone _ hr'' (by simpa [hj] using hk)]
      exact (hval _ hjit).not_violated

/-- **Metrics without a value.** Every visit of such a metric keeps the rule's state exactly when none of them meets a
firing state; and a packet-loss rule never still fires after the metrics of the ICMP probe it fired on. -/
theorem evaluate_valueless_iff (mgr : AlertManager) (agentId : String) (metrics : List Metric) (now : Int) :
    (ValuelessKept mgr agentId metrics now ↔ ValuelessMeetsQuiet mgr agentId metrics) ∧
      ∀ stats host us p, ∀ r ∈ mgr.rules, r.onFailure = false → r.metricField = "packet_loss_pct" →
        (∀ r' ∈ mgr.rules, stateKey r'.id agentId host = stateKey r.id agentId host → r' = r) →
        r.applies agentId (runIcmpProbe stats host us p).loss = true →
        (verdict r (runIcmpProbe stats host us p).loss).violated = true →
        (stateAt (mgr.evaluate agentId (runIcmpProbe stats host us p).metrics now).1.states
          (stateKey r.id agentId host)).firing = false :=
  ⟨valuelessKept_iff, fun stats host us p _ hr hf hm halone happ _ => icmp_quiet stats host us p hr hf hm halone happ⟩

end

/-! ## The shipped packet-loss rule -/

/-- `high-packet-loss` of `alert_rules.json`. -/
def highPacketLoss : AlertRule :=
  { id := "high-packet-loss", name := "High Packet Loss", checkType := "icmp_ping", metricField := "packet_loss_pct",
    threshold := .ofInt 5, severity := "critical" }

/-- Four lost pings: the loss metric fires `high-packet-loss`, the rtt metric behind it resolves it. -/
theorem packet_loss_resolved_by_rtt :
    let mgr : AlertManager := { rules := [highPacketLoss] }
    let stats : IcmpStats := ⟨fun lost sent => .ofNat (100 * lost / sent), fun _ => .zero, fun _ => .zero⟩
    let res := runIcmpProbe stats "1.1.1.1" (1, 2, 3) (.pings [none, none, none, none])
    let key := stateKey "high-packet-loss" "agent-a" "1.1.1.1"
    (stateAt (mgr.evaluate "agent-a" [res.loss] 1000).1.states key).firing = true ∧
      (stateAt (mgr.evaluate "agent-a" res.metrics 1000).1.states key).firing = false ∧
      ¬ ValuelessKept mgr "agent-a" res.metrics 1000 := by
  intro mgr stats res key
  refine ⟨by decide, by decide, fun h => ?_⟩
  have := h [(res.loss, highPacketLoss)] res.rtt highPacketLoss [(res.jitter, highPacketLoss)] rfl
    ⟨rfl, .inl rfl⟩
  exact absurd this (by decide)

end PudimNetMon.Alerting
