import PudimNetMon.Alerting.Calls

/-!
# One agent's metrics and another agent's alerts

A triple of rule, agent and target is tracked under one joined key. A key with more separators than its own two is
the key of triples of several agents, and of several rules; `Evaluate` and `DeleteRule` then act on all of them.

- `alerts_isolated_iff`: a call leaves the triples of other agents or rules alone exactly when it leaves such keys
  alone.
-/

namespace PudimNetMon.Alerting

/-- More separators than the key's own two. -/
def Ambiguous (key : String) : Prop := 2 < key.toList.count kSep

instance (key : String) : Decidable (Ambiguous key) := inferInstanceAs (Decidable (_ < _))

theorem ambiguous_stateKey {ruleId agentId target : String} :
    Ambiguous (stateKey ruleId agentId target) ↔
      kSep ∈ ruleId.toList ∨ kSep ∈ agentId.toList ∨ kSep ∈ target.toList := by
  unfold Ambiguous
  rw [stateKey_toList, count_join3, ← List.count_pos_iff, ← List.count_pos_iff, ← List.count_pos_iff]
  omega

/-- A key that is not ambiguous has one triple. -/
theorem stateKey_unique {ruleId agentId target ruleId' agentId' target' : String}
    (h : ¬Ambiguous (stateKey ruleId agentId target))
    (heq : stateKey ruleId' agentId' target' = stateKey ruleId agentId target) :
    ruleId' = ruleId ∧ agentId' = agentId ∧ target' = target := by
  have hcount : (join3 kSep ruleId.toList agentId.toList target.toList).count kSep = 2 := by
    unfold Ambiguous at h
    rw [stateKey_toList] at h
    rw [count_join3] at h ⊢
    omega
  have hlists := congrArg String.toList heq
  rw [stateKey_toList, stateKey_toList] at hlists
  obtain ⟨hr, ha, ht⟩ := join3_unique hcount hlists
  exact ⟨String.toList_injective hr, String.toList_injective ha, String.toList_injective ht⟩

theorem stateKey_ofList (a b c : List Char) :
    (stateKey (String.ofList a) (String.ofList b) (String.ofList c)).toList = join3 kSep a b c := by
  simp [stateKey_toList]

/-- An ambiguous key is that of another agent's triple, too. -/
theorem other_agent {ruleId agentId target : String} (h : Ambiguous (stateKey ruleId agentId target)) :
    ∃ ruleId' agentId' target', agentId' ≠ agentId ∧
      stateKey ruleId' agentId' target' = stateKey ruleId agentId target := by
  unfold Ambiguous at h
  rw [stateKey_toList] at h
  obtain ⟨a, b, c, hjoin, hne⟩ := other_middle h
  refine ⟨String.ofList a, String.ofList b, String.ofList c, fun he => hne ?_, ?_⟩
  · rw [← he, String.toList_ofList]
  · apply String.toList_injective
    rw [stateKey_ofList, hjoin, stateKey_toList]

/-! ## What the visits do to one state -/

/-- The loop body on the state of its key. -/
def FiringState.visit (now : Int) (x : WorkItem) (st : FiringState) : FiringState :=
  let v := verdict x.2 x.1
  if v.violated then
    if !st.firing then st.fire now v
    else if x.2.repeatIntervalSec * 1000 ≤ now - st.lastNotifiedMs then st.renew now v
    else st
  else if st.firing then {}
  else st

/-- The state of `key` after the visits that reach it. -/
def visited (agentId key : String) (now : Int) (xs : List WorkItem) (st : FiringState) : FiringState :=
  (xs.filter (·.hits agentId key)).foldl (fun st x => st.visit now x) st

theorem evalRule_visit {agentId key : String} {x : WorkItem} (now : Int) (s : EvalState)
    (h : x.hits agentId key = true) :
    stateAt (evalRule agentId now x.1 s x.2).states key = (stateAt s.states key).visit now x := by
  obtain ⟨ha, rfl⟩ := WorkItem.hits_iff.1 h
  simp only [evalRule, ha, if_true, FiringState.visit]
  cases (verdict x.2 x.1).violated <;>
    cases (stateAt s.states (stateKey x.2.id agentId x.1.target)).firing
  case false.false => simp
  case false.true => simp [EvalState.emit]
  case true.false => simp [EvalState.emit]
  case true.true =>
    simp only [if_true, Bool.not_true, Bool.false_eq_true, if_false]
    split <;> simp [EvalState.emit]

theorem stateAt_evalItems (agentId key : String) (now : Int) (s : EvalState) (xs : List WorkItem) :
    stateAt (evalItems agentId now s xs).states key = visited agentId key now xs (stateAt s.states key) := by
  induction xs generalizing s with
  | nil => rfl
  | cons x xs ih =>
    rw [evalItems_cons, ih]
    unfold visited
    cases hx : x.hits agentId key with
    | true => rw [List.filter_cons_of_pos hx, List.foldl_cons, evalRule_visit now s hx]
    | false => rw [List.filter_cons_of_neg (by simp [hx]), evalRule_frame now s hx]

/-- A key that no visit reaches keeps its state. -/
theorem visited_of_not_hits {agentId key : String} {xs : List WorkItem} (now : Int) (st : FiringState)
    (h : ∀ x ∈ xs, x.hits agentId key = false) : visited agentId key now xs st = st := by
  have hnone : xs.filter (·.hits agentId key) = [] := by
    apply List.filter_eq_nil_iff.2
    intro x hx
    simp [h x hx]
  rw [visited, hnone, List.foldl_nil]

theorem stateAt_evaluate (mgr : AlertManager) (agentId key : String) (metrics : List Metric) (now : Int) :
    stateAt (mgr.evaluate agentId metrics now).1.states key =
      visited agentId key now (workItems mgr.rules metrics) (stateAt mgr.states key) := by
  have hstates := congrArg EvalState.states (evaluate_items mgr agentId metrics now)
  simp only [AlertManager.evalState] at hstates
  rw [hstates]
  exact stateAt_evalItems agentId key now mgr.evalState _

/-- A verdict that leaves a state as it is: the state fires if the rule is violated, and a violation is not notified
again yet, or notified with the same values. -/
def FiringState.Stays (st : FiringState) (now : Int) (x : WorkItem) : Prop :=
  st.firing = (verdict x.2 x.1).violated ∧ ((verdict x.2 x.1).violated = true →
    now - st.lastNotifiedMs < x.2.repeatIntervalSec * 1000 ∨
      (st.lastNotifiedMs = now ∧ st.lastValue = (verdict x.2 x.1).value ∧ st.lastDetail = (verdict x.2 x.1).detail))

theorem visit_eq_self_iff {now : Int} {x : WorkItem} {st : FiringState} : st.visit now x = st ↔ st.Stays now x := by
  simp only [FiringState.visit, FiringState.Stays]
  generalize verdict x.2 x.1 = v
  obtain ⟨firing, acknowledged, firstFiredMs, lastNotifiedMs, lastValue, lastDetail⟩ := st
  obtain ⟨violated, value, detail⟩ := v
  cases violated <;> cases firing
  case false.false => simp
  case false.true => simp
  case true.false => simp [FiringState.fire]
  case true.true =>
    simp only [if_true, Bool.not_true, Bool.false_eq_true, if_false, true_implies, true_and]
    by_cases hrepeat : x.2.repeatIntervalSec * 1000 ≤ now - lastNotifiedMs
    · have hnot : ¬now - lastNotifiedMs < x.2.repeatIntervalSec * 1000 := by omega
      simp only [if_pos hrepeat, hnot, false_or, FiringState.renew, FiringState.mk.injEq, true_and]
      constructor <;> rintro ⟨rfl, rfl, rfl⟩ <;> exact ⟨rfl, rfl, rfl⟩
    · rw [if_neg hrepeat]
      exact iff_of_true rfl (.inl (Int.not_le.1 hrepeat))

/-- A state stays throughout the visits exactly when each of them leaves the first state as it is. -/
theorem visited_prefixes_iff {agentId key : String} {now : Int} {xs : List WorkItem} {st : FiringState} :
    (∀ pre, pre <+: xs → visited agentId key now pre st = st) ↔
      ∀ x ∈ xs, x.hits agentId key = true → st.Stays now x := by
  induction xs with
  | nil => simp [visited]
  | cons x xs ih =>
    cases hx : x.hits agentId key with
    | false =>
      have hcons : ∀ pre, visited agentId key now (x :: pre) st = visited agentId key now pre st := by
        intro pre
        rw [visited, List.filter_cons_of_neg (by simp [hx]), visited]
      simp only [List.forall_mem_cons, hx, Bool.false_eq_true, false_implies, true_and, ← ih]
      constructor
      · intro h pre hpre
        rw [← hcons]
        exact h (x :: pre) (List.cons_prefix_cons.2 ⟨rfl, hpre⟩)
      · intro h pre hpre
        cases pre with
        | nil => rfl
        | cons y pre =>
          obtain ⟨rfl, hrest⟩ := List.cons_prefix_cons.1 hpre
          rw [hcons]
          exact h pre hrest
    | true =>
      have hcons : ∀ pre, visited agentId key now (x :: pre) st = visited agentId key now pre (st.visit now x) := by
        intro pre
        rw [visited, List.filter_cons_of_pos hx, List.foldl_cons, visited]
      simp only [List.forall_mem_cons, hx, true_implies, ← ih]
      constructor
      · intro h
        have hfirst : st.visit now x = st := by
          have := h [x] (List.cons_prefix_cons.2 ⟨rfl, List.nil_prefix⟩)
          rwa [hcons] at this
        refine ⟨visit_eq_self_iff.1 hfirst, fun pre hpre => ?_⟩
        have := h (x :: pre) (List.cons_prefix_cons.2 ⟨rfl, hpre⟩)
        rwa [hcons, hfirst] at this
      · rintro ⟨hfirst, h⟩ pre hpre
        cases pre with
        | nil => rfl
        | cons y pre =>
          obtain ⟨rfl, hrest⟩ := List.cons_prefix_cons.1 hpre
          rw [hcons, visit_eq_self_iff.2 hfirst]
          exact h pre hrest

/-! ## Evaluate -/

/-- The active alerts name the triple. -/
def Listed (mgr : AlertManager) (ruleId agentId target : String) : Prop :=
  ∃ e ∈ mgr.activeAlerts, e.ruleId = ruleId ∧ e.agentId = agentId ∧ e.target = target

theorem listed_iff {mgr : AlertManager} {ruleId agentId target : String} :
    Listed mgr ruleId agentId target ↔
      ∃ key, (stateAt mgr.states key).firing = true ∧ keyFields key = (ruleId, agentId, target) := by
  have h := @forall_activeAlerts mgr fun r a t => ¬(r = ruleId ∧ a = agentId ∧ t = target)
  constructor
  · intro hlisted
    by_contra hnone
    push Not at hnone
    obtain ⟨e, he, hfields⟩ := hlisted
    refine h.2 (fun key hkey hfields => hnone key hkey ?_) e he hfields
    exact Prod.ext hfields.1 (Prod.ext hfields.2.1 hfields.2.2)
  · rintro ⟨key, hkey, hfields⟩
    by_contra hnone
    refine h.1 (fun e he hf => hnone ⟨e, he, hf⟩) key hkey ?_
    rw [hfields]
    exact ⟨rfl, rfl, rfl⟩

section

variable (mgr : AlertManager) (agentId : String) (metrics : List Metric) (now : Int)

/-- `Evaluate` leaves the triples of other agents alone: their states, and which of them are listed. -/
def EvaluateIsolated : Prop :=
  ∀ r a t, a ≠ agentId →
    stateAt (mgr.evaluate agentId metrics now).1.states (stateKey r a t) = stateAt mgr.states (stateKey r a t) ∧
      (Listed (mgr.evaluate agentId metrics now).1 r a t ↔ Listed mgr r a t)

/-- The visits of an ambiguous key leave its state as it was. -/
def AmbiguousKept : Prop :=
  ∀ x ∈ workItems mgr.rules metrics, x.2.applies agentId x.1 = true →
    (kSep ∈ x.2.id.toList ∨ kSep ∈ agentId.toList ∨ kSep ∈ x.1.target.toList) →
    visited agentId (stateKey x.2.id agentId x.1.target) now (workItems mgr.rules metrics)
      (stateAt mgr.states (stateKey x.2.id agentId x.1.target)) =
      stateAt mgr.states (stateKey x.2.id agentId x.1.target)

/-- At no visit of `Evaluate` is the state of another agent's triple another one than before the call. -/
def VisitsIsolated : Prop :=
  ∀ pre, pre <+: workItems mgr.rules metrics → ∀ r a t, a ≠ agentId →
    stateAt (evalItems agentId now mgr.evalState pre).states (stateKey r a t) = stateAt mgr.states (stateKey r a t)

/-- Each visit of an ambiguous key leaves the state that the key has before the call as it is. -/
def AmbiguousStays : Prop :=
  ∀ x ∈ workItems mgr.rules metrics, x.2.applies agentId x.1 = true →
    (kSep ∈ x.2.id.toList ∨ kSep ∈ agentId.toList ∨ kSep ∈ x.1.target.toList) →
    (stateAt mgr.states (stateKey x.2.id agentId x.1.target)).Stays now x

variable {mgr agentId metrics now}

/-- A triple of another agent that a visit reaches has an ambiguous key. -/
theorem ambiguous_of_hits {x : WorkItem} {r a t : String} (hne : a ≠ agentId)
    (hhit : x.hits agentId (stateKey r a t) = true) : Ambiguous (stateKey x.2.id agentId x.1.target) := by
  by_contra hplain
  exact hne (stateKey_unique hplain (WorkItem.hits_iff.1 hhit).2.symm).2.1

/-- The triple of another agent keeps its state. -/
theorem AmbiguousKept.state (h : AmbiguousKept mgr agentId metrics now) {r a t : String} (hne : a ≠ agentId) :
    stateAt (mgr.evaluate agentId metrics now).1.states (stateKey r a t) = stateAt mgr.states (stateKey r a t) := by
  rw [stateAt_evaluate]
  by_cases hhit : ∃ x ∈ workItems mgr.rules metrics, x.hits agentId (stateKey r a t) = true
  · obtain ⟨x, hx, hhit⟩ := hhit
    obtain ⟨happ, hkey⟩ := WorkItem.hits_iff.1 hhit
    have hamb := ambiguous_of_hits hne hhit
    rw [← hkey]
    exact h x hx happ (ambiguous_stateKey.1 hamb)
  · push Not at hhit
    exact visited_of_not_hits now _ fun x hx => by simpa using hhit x hx

theorem evaluateIsolated_iff : EvaluateIsolated mgr agentId metrics now ↔ AmbiguousKept mgr agentId metrics now := by
  constructor
  · intro h x _ _ hsep
    obtain ⟨r, a, t, hne, hkey⟩ := other_agent (ambiguous_stateKey.2 hsep)
    have hstate := (h r a t hne).1
    rwa [hkey, stateAt_evaluate] at hstate
  · intro h r a t hne
    refine ⟨h.state hne, ?_⟩
    -- a listed triple is the one its key is made of, unless no visit reaches the key
    have hsame : ∀ key, keyFields key = (r, a, t) →
        stateAt (mgr.evaluate agentId metrics now).1.states key = stateAt mgr.states key := by
      intro key hfields
      by_cases hhit : ∃ x ∈ workItems mgr.rules metrics, x.hits agentId key = true
      · obtain ⟨x, -, hhit⟩ := hhit
        have hkey := (stateKey_keyFields (WorkItem.hits_iff.1 hhit).2.symm).1
        rw [hfields] at hkey
        rw [← hkey]
        exact h.state hne
      · push Not at hhit
        rw [stateAt_evaluate]
        exact visited_of_not_hits now _ fun x hx => by simpa using hhit x hx
    rw [listed_iff, listed_iff]
    constructor
    · rintro ⟨key, hfiring, hfields⟩
      exact ⟨key, by rwa [hsame key hfields] at hfiring, hfields⟩
    · rintro ⟨key, hfiring, hfields⟩
      exact ⟨key, by rwa [hsame key hfields], hfields⟩

theorem visitsIsolated_iff : VisitsIsolated mgr agentId metrics now ↔ AmbiguousStays mgr agentId metrics now := by
  constructor
  · intro h x hx happ hsep
    obtain ⟨r, a, t, hne, hkey⟩ := other_agent (ambiguous_stateKey.2 hsep)
    refine visited_prefixes_iff.1 (fun pre hpre => ?_) x hx (WorkItem.hits_iff.2 ⟨happ, rfl⟩)
    have hstate := h pre hpre r a t hne
    rwa [hkey, stateAt_evalItems] at hstate
  · intro h pre hpre r a t hne
    rw [stateAt_evalItems]
    refine visited_prefixes_iff.2 (fun x hx hhit => ?_) pre hpre
    obtain ⟨happ, hkey⟩ := WorkItem.hits_iff.1 hhit
    have hstays := h x hx happ (ambiguous_stateKey.1 (ambiguous_of_hits hne hhit))
    rwa [hkey] at hstays

end

/-! ## DeleteRule -/

section

variable (lib : JsonLib) (s : Store) (ruleId : String) (a : WriteAnswers)

/-- `DeleteRule` leaves the states of other rules alone. -/
def DeleteIsolated : Prop :=
  ∀ r agentId target, r ≠ ruleId →
    stateAt (deleteRule lib s ruleId a).2.manager.states (stateKey r agentId target) =
      stateAt s.manager.states (stateKey r agentId target)

/-- What is forgotten with a rule: states whose keys hold their own two separators only, behind an id without one. -/
def ForgetsPlain : Prop :=
  ∀ key, OfRule ruleId key → stateAt s.manager.states key ≠ {} → kSep ∉ ruleId.toList ∧ ¬Ambiguous key

variable {lib s ruleId a}

theorem deleteRule_states (lib : JsonLib) (s : Store) (ruleId : String) (a : WriteAnswers) :
    (deleteRule lib s ruleId a).2.manager.states = s.manager.states ∧ ¬Deletes lib s ruleId a ∨
    (deleteRule lib s ruleId a).2.manager.states = forgetRule ruleId s.manager.states ∧ Deletes lib s ruleId a := by
  have hstep := delete_step lib s ruleId a
  generalize (deleteRule lib s ruleId a).1 = reply at hstep
  generalize (deleteRule lib s ruleId a).2.manager = manager at hstep ⊢
  cases hstep with
  | delete _ _ hdel => exact .inr ⟨rfl, hdel⟩
  | deleteFails _ _ _ _ hnot => exact .inl ⟨rfl, hnot⟩

theorem deleteIsolated_iff : DeleteIsolated lib s ruleId a ↔ (Deletes lib s ruleId a → ForgetsPlain s ruleId) := by
  unfold DeleteIsolated
  rcases deleteRule_states lib s ruleId a with ⟨heq, hnot⟩ | ⟨heq, hdel⟩
  · rw [heq]
    exact iff_of_true (fun _ _ _ _ => rfl) fun hdel => absurd hdel hnot
  rw [heq]
  simp only [hdel, true_implies, stateAt_forgetRule]
  constructor
  · intro h key hof hstate
    obtain ⟨rest, hkey⟩ := ofRule_iff.1 hof
    by_contra hplain
    have hother : kSep ∈ ruleId.toList ∨ 1 < rest.count kSep := by
      by_contra hnone
      rw [not_or] at hnone
      refine hplain ⟨hnone.1, ?_⟩
      unfold Ambiguous
      rw [hkey, List.count_append, List.count_cons_self, List.count_eq_zero.2 hnone.1]
      omega
    obtain ⟨r, ag, t, hjoin, hne⟩ := other_first hother
    have heq : stateKey (String.ofList r) (String.ofList ag) (String.ofList t) = key := by
      apply String.toList_injective
      rw [stateKey_ofList, hjoin, hkey]
    have hsame := h (String.ofList r) (String.ofList ag) (String.ofList t)
      (fun he => hne (by rw [← he, String.toList_ofList]))
    rw [heq, if_pos hof] at hsame
    exact hstate hsame.symm
  · intro h r ag t hne
    split
    · rename_i hof
      by_contra hstate
      obtain ⟨hsep, hplain⟩ := h _ hof (Ne.symm hstate)
      obtain ⟨rest, hkey⟩ := ofRule_iff.1 hof
      have hr : kSep ∉ r.toList := fun hmem => hplain (ambiguous_stateKey.2 (.inl hmem))
      have hcut := congrArg (cut kSep) hkey
      rw [stateKey_toList, join3, cut_append hr, cut_append hsep, Option.some.injEq, Prod.mk.injEq] at hcut
      exact hne (String.toList_injective hcut.1)
    · rfl

end

/-- **Isolation.** `Evaluate` leaves the triples of other agents alone exactly when its visits of ambiguous keys leave
their states, at the end of the call or at each visit of it; and `DeleteRule` those of other rules exactly when it
forgets no ambiguous key and the rule's id holds no separator. -/
theorem alerts_isolated_iff (lib : JsonLib) (s : Store) (agentId ruleId : String) (metrics : List Metric) (now : Int)
    (a : WriteAnswers) :
    (EvaluateIsolated s.manager agentId metrics now ↔ AmbiguousKept s.manager agentId metrics now) ∧
      (VisitsIsolated s.manager agentId metrics now ↔ AmbiguousStays s.manager agentId metrics now) ∧
      (DeleteIsolated lib s ruleId a ↔ (Deletes lib s ruleId a → ForgetsPlain s ruleId)) :=
  ⟨evaluateIsolated_iff, visitsIsolated_iff, deleteIsolated_iff⟩

/-- A rule that fires on failed probes. -/
def failureRule (id : String) : AlertRule := { id, name := id, onFailure := true }

/-- Agent `edge` with the separator and more behind it fires a state of agent `edge`, listed as that agent's; and a
delete of rule `web` forgets a firing state of the rule whose id goes on with the separator. -/
theorem separator_crosses_agents :
    let failed : Metric := { target := "dns" }
    let mgr : AlertManager := { rules := [failureRule "web"] }
    let both : AlertManager := { rules := [failureRule "web", failureRule "web\x1f1"] }
    let fired := (both.evaluate "core" [failed] 1000).1
    (stateAt mgr.states (stateKey "web" "edge" "1\x1fdns")).firing = false ∧
      (stateAt (mgr.evaluate "edge\x1f1" [failed] 1000).1.states (stateKey "web" "edge" "1\x1fdns")).firing = true ∧
      ((mgr.evaluate "edge\x1f1" [failed] 1000).1.activeAlerts.map fun e => e.agentId) = ["edge"] ∧
      ¬EvaluateIsolated mgr "edge\x1f1" [failed] 1000 ∧
      (stateAt fired.states (stateKey "web\x1f1" "core" "dns")).firing = true ∧
      ¬DeleteIsolated tableLib { manager := fired, files := fun _ => none } "web" ⟨true, true, none⟩ := by
  intro failed mgr both fired
  have hcrossed : (stateAt (mgr.evaluate "edge\x1f1" [failed] 1000).1.states
      (stateKey "web" "edge" "1\x1fdns")).firing = true := by decide
  have hfired : (stateAt fired.states (stateKey "web\x1f1" "core" "dns")).firing = true := by decide
  refine ⟨by decide, hcrossed, by decide, fun h => ?_, hfired, fun h => ?_⟩
  · rw [(h "web" "edge" "1\x1fdns" (by decide)).1] at hcrossed
    exact absurd hcrossed (by decide)
  · rw [← h "web\x1f1" "core" "dns" (by decide)] at hfired
    exact absurd hfired (by decide)

end PudimNetMon.Alerting
