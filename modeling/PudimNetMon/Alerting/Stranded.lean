import PudimNetMon.Alerting.Calls
import PudimNetMon.Alerting.Evaluate

/-!
# Firing states without a rule

A firing state can only resolve while a stored rule of its id matches its agent and its target. A load clears the
states, a delete forgets those of its rule; an upsert keeps them, also those its new filters no longer match.

- `noStranded_iff`: in a run of calls every active alert has such a rule exactly when no upsert narrows one away.
-/

namespace PudimNetMon.Alerting

/-- A rule of the id matches the agent and the target. -/
def Covers (rules : List AlertRule) (ruleId agentId target : String) : Prop :=
  ∃ r ∈ rules, r.id = ruleId ∧ r.matchesAgent agentId = true ∧ r.matchesTarget target = true

instance (rules : List AlertRule) (ruleId agentId target : String) : Decidable (Covers rules ruleId agentId target) :=
  inferInstanceAs (Decidable (∃ r ∈ rules, _))

/-- The triple a key is listed as is covered. -/
def CoversKey (rules : List AlertRule) (key : String) : Prop :=
  Covers rules (keyFields key).1 (keyFields key).2.1 (keyFields key).2.2

/-- Every active alert belongs to a stored rule that matches its agent and its target. -/
def NoStranded (s : Session) : Prop :=
  ∀ e ∈ s.store.manager.activeAlerts, Covers s.store.manager.rules e.ruleId e.agentId e.target

theorem noStranded_iff_keys {s : Session} : NoStranded s ↔
    ∀ key, (stateAt s.store.manager.states key).firing = true → CoversKey s.store.manager.rules key :=
  forall_activeAlerts

/-- The firing keys are those of triples. -/
def KeysJoined (s : Session) : Prop :=
  ∀ key, (stateAt s.store.manager.states key).firing = true →
    ∃ ruleId agentId target, key = stateKey ruleId agentId target

/-! ## The rules of a call -/

theorem mem_upsertInto_iff {rule r : AlertRule} {rules : List AlertRule} :
    r ∈ upsertInto rule rules ↔ r = rule ∨ r ∈ rules.eraseP fun r => r.id = rule.id := by
  induction rules with
  | nil => simp [upsertInto]
  | cons r' rules ih =>
    unfold upsertInto
    by_cases hid : r'.id = rule.id
    · rw [if_pos hid, List.eraseP_cons_of_pos (by simpa using hid), List.mem_cons]
    · rw [if_neg hid, List.eraseP_cons_of_neg (by simpa using hid), List.mem_cons, List.mem_cons, ih]
      exact or_left_comm

theorem covers_upsertInto {rule : AlertRule} {rules : List AlertRule} {ruleId agentId target : String} :
    Covers (upsertInto rule rules) ruleId agentId target ↔
      (rule.id = ruleId ∧ rule.matchesAgent agentId = true ∧ rule.matchesTarget target = true) ∨
        Covers (rules.eraseP fun r => r.id = rule.id) ruleId agentId target := by
  constructor
  · rintro ⟨r, hr, hmatches⟩
    rcases mem_upsertInto_iff.1 hr with rfl | hr
    · exact .inl hmatches
    · exact .inr ⟨r, hr, hmatches⟩
  · rintro (hmatches | ⟨r, hr, hmatches⟩)
    · exact ⟨rule, mem_upsertInto_iff.2 (.inl rfl), hmatches⟩
    · exact ⟨r, mem_upsertInto_iff.2 (.inr hr), hmatches⟩

/-- The triples of other rules stay covered. -/
theorem Covers.eraseP {rules : List AlertRule} {ruleId agentId target id : String} (hne : ruleId ≠ id)
    (h : Covers rules ruleId agentId target) : Covers (rules.eraseP fun r => r.id = id) ruleId agentId target := by
  obtain ⟨r, hr, hid, hmatches⟩ := h
  refine ⟨r, (List.mem_eraseP_of_neg ?_).2 hr, hid, hmatches⟩
  simpa [hid] using hne

theorem Covers.filter {rules : List AlertRule} {ruleId agentId target id : String} (hne : ruleId ≠ id)
    (h : Covers rules ruleId agentId target) : Covers (rules.filter fun r => r.id ≠ id) ruleId agentId target := by
  obtain ⟨r, hr, hid, hmatches⟩ := h
  exact ⟨r, List.mem_filter.2 ⟨hr, by simpa [hid] using hne⟩, hid, hmatches⟩

/-! ## The firing flags of a call -/

/-- When a visit reaches the key, the flag before the visits does not matter. -/
theorem firingBefore_of_hit {agentId key : String} {xs : List WorkItem} {x : WorkItem} (hx : x ∈ xs)
    (hit : x.hits agentId key = true) (b b' : Bool) :
    firingBefore agentId key xs b = firingBefore agentId key xs b' := by
  unfold firingBefore
  split
  · rfl
  · rename_i hnone
    exact absurd hit (List.find?_eq_none.1 hnone x (List.mem_reverse.2 hx))

theorem firingBefore_of_not_hits {agentId key : String} {xs : List WorkItem}
    (h : ∀ x ∈ xs, x.hits agentId key = false) (b : Bool) : firingBefore agentId key xs b = b := by
  unfold firingBefore
  split
  · rename_i x hx
    have hit := List.find?_some hx
    rw [h x (List.mem_reverse.1 (List.mem_of_find?_eq_some hx))] at hit
    cases hit
  · rfl

theorem firing_evaluate (mgr : AlertManager) (agentId key : String) (metrics : List Metric) (now : Int) :
    (stateAt (mgr.evaluate agentId metrics now).1.states key).firing =
      firingBefore agentId key (workItems mgr.rules metrics) (stateAt mgr.states key).firing := by
  rw [evaluate_manager]
  exact firing_evalItems agentId key now mgr.evalState _

/-- The firing keys of the calls' states are joined from triples. -/
theorem KeysJoined.step {lib : JsonLib} {s s' : Session} {op : Op} (hi : KeysJoined s) (h : s.step lib op = some s') :
    KeysJoined s' := by
  obtain ⟨entries, hop, -⟩ := session_step h
  unfold KeysJoined at hi ⊢
  generalize s'.store.manager = manager at hop ⊢
  cases hop with
  | load => exact fun key hf => by cases hf
  | refused => exact hi
  | store c reply manager hc =>
    cases hc with
    | load => exact fun key hf => by cases hf
    | loadFails => exact hi
    | upsert => exact hi
    | upsertFails => exact hi
    | delete ruleId a =>
      intro key hf
      rw [stateAt_forgetRule] at hf
      split at hf
      · cases hf
      · exact hi key hf
    | deleteFails => exact hi
  | evaluate agentId metrics now =>
    intro key hf
    rw [firing_evaluate] at hf
    by_cases hhit : ∃ x ∈ workItems s.store.manager.rules metrics, x.hits agentId key = true
    · obtain ⟨x, -, hhit⟩ := hhit
      exact ⟨_, _, _, (WorkItem.hits_iff.1 hhit).2.symm⟩
    · push Not at hhit
      rw [firingBefore_of_not_hits (by simpa using hhit)] at hf
      exact hi key hf
  | ack ruleId agentId target =>
    intro key hf
    rw [(ack_states s.store.manager ruleId agentId target).2] at hf
    exact hi key hf

/-! ## Runs -/

section

variable (lib : JsonLib)

/-- An upsert that goes through leaves each active alert of its rule's id to the new filters, or to another rule of the
id. An `Evaluate` call that leaves a key with a separator in its rule id or agent id firing leaves one that is covered
as it is listed. -/
def CallCovers (s : Session) : Op → Prop
  | .store (.upsert ruleJson a) => ∀ rule, ReadsRule lib ruleJson rule →
      Persists lib s.store a (upsertInto rule s.store.manager.rules) →
      ∀ e ∈ s.store.manager.activeAlerts, e.ruleId = rule.id →
        (rule.matchesAgent e.agentId = true ∧ rule.matchesTarget e.target = true) ∨
          Covers (s.store.manager.rules.eraseP fun r => r.id = rule.id) e.ruleId e.agentId e.target
  | .evaluate agentId metrics _ => ∀ x ∈ workItems s.store.manager.rules metrics,
      x.2.applies agentId x.1 = true → (kSep ∈ x.2.id.toList ∨ kSep ∈ agentId.toList) →
      firingBefore agentId (stateKey x.2.id agentId x.1.target) (workItems s.store.manager.rules metrics) false = true →
      CoversKey s.store.manager.rules (stateKey x.2.id agentId x.1.target)
  | _ => True

variable {lib} {s s' : Session}

theorem noStranded_upsert (rule : AlertRule) {mgr : AlertManager}
    (hs : ∀ e ∈ mgr.activeAlerts, Covers mgr.rules e.ruleId e.agentId e.target) :
    (∀ e ∈ mgr.activeAlerts, Covers (upsertInto rule mgr.rules) e.ruleId e.agentId e.target) ↔
      ∀ e ∈ mgr.activeAlerts, e.ruleId = rule.id →
        (rule.matchesAgent e.agentId = true ∧ rule.matchesTarget e.target = true) ∨
          Covers (mgr.rules.eraseP fun r => r.id = rule.id) e.ruleId e.agentId e.target := by
  refine forall_congr' fun e => forall_congr' fun he => ?_
  rw [covers_upsertInto]
  constructor
  · rintro (⟨-, hmatches⟩ | hother) hid
    · exact .inl hmatches
    · exact .inr hother
  · intro h
    by_cases hid : e.ruleId = rule.id
    · exact (h hid).imp_left fun hmatches => ⟨hid.symm, hmatches⟩
    · exact .inr ((hs e he).eraseP hid)

/-- A visited rule covers its own triple; a key without separators in the first two fields is listed as that triple. -/
theorem coversKey_of_applies {rules : List AlertRule} {metrics : List Metric} {agentId : String} {x : WorkItem}
    (hx : x ∈ workItems rules metrics) (happ : x.2.applies agentId x.1 = true) (hr : kSep ∉ x.2.id.toList)
    (ha : kSep ∉ agentId.toList) : CoversKey rules (stateKey x.2.id agentId x.1.target) := by
  unfold CoversKey
  rw [keyFields_stateKey hr ha]
  obtain ⟨m, -, hx⟩ := List.mem_flatMap.1 hx
  obtain ⟨rule, hrule, rfl⟩ := List.mem_map.1 hx
  unfold AlertRule.applies at happ
  rw [Bool.and_eq_true, Bool.and_eq_true] at happ
  exact ⟨rule, hrule, rfl, happ.1.1, happ.2⟩

theorem noStranded_evaluate {mgr : AlertManager} {agentId : String} {metrics : List Metric} (now : Int)
    (hs : ∀ key, (stateAt mgr.states key).firing = true → CoversKey mgr.rules key) :
    (∀ key, (stateAt (mgr.evaluate agentId metrics now).1.states key).firing = true → CoversKey mgr.rules key) ↔
      ∀ x ∈ workItems mgr.rules metrics, x.2.applies agentId x.1 = true →
        (kSep ∈ x.2.id.toList ∨ kSep ∈ agentId.toList) →
        firingBefore agentId (stateKey x.2.id agentId x.1.target) (workItems mgr.rules metrics) false = true →
        CoversKey mgr.rules (stateKey x.2.id agentId x.1.target) := by
  constructor
  · intro h x hx happ _ hfiring
    refine h _ ?_
    rw [firing_evaluate]
    rwa [firingBefore_of_hit hx (WorkItem.hits_iff.2 ⟨happ, rfl⟩) _ false]
  · intro h key hf
    rw [firing_evaluate] at hf
    by_cases hhit : ∃ x ∈ workItems mgr.rules metrics, x.hits agentId key = true
    · obtain ⟨x, hx, hhit⟩ := hhit
      rw [firingBefore_of_hit hx hhit _ false] at hf
      obtain ⟨happ, rfl⟩ := WorkItem.hits_iff.1 hhit
      by_cases hsep : kSep ∈ x.2.id.toList ∨ kSep ∈ agentId.toList
      · exact h x hx happ hsep hf
      · rw [not_or] at hsep
        exact coversKey_of_applies hx happ hsep.1 hsep.2
    · push Not at hhit
      rw [firingBefore_of_not_hits (by simpa using hhit)] at hf
      exact hs key hf

/-- A call leaves every active alert a rule exactly under its condition. -/
theorem noStranded_step {op : Op} (hi : KeysJoined s) (hs : NoStranded s) (h : s.step lib op = some s') :
    NoStranded s' ↔ CallCovers lib s op := by
  obtain ⟨entries, hop, -⟩ := session_step h
  have hkeys := noStranded_iff_keys.1 hs
  rw [noStranded_iff_keys]
  generalize s'.store.manager = manager at hop ⊢
  cases hop with
  | load => exact iff_of_true (fun key hf => by cases hf) trivial
  | refused => exact iff_of_true hkeys trivial
  | store c reply manager hc =>
    cases hc with
    | load => exact iff_of_true (fun key hf => by cases hf) trivial
    | loadFails => exact iff_of_true hkeys trivial
    | upsert ruleJson a rule hrule hpersist =>
      have hactive := noStranded_upsert rule hs
      refine (@forall_activeAlerts s.store.manager (Covers (upsertInto rule s.store.manager.rules))).symm.trans
        (hactive.trans ?_)
      refine ⟨fun hcov rule' hrule' _ => ?_, fun hcov => hcov rule hrule hpersist⟩
      obtain ⟨doc, hdoc, -, hparse⟩ := hrule
      obtain ⟨doc', hdoc', -, hparse'⟩ := hrule'
      cases hdoc.symm.trans hdoc'
      cases hparse.symm.trans hparse'
      exact hcov
    | upsertFails ruleJson a reply hne hfails =>
      exact iff_of_true hkeys fun rule hrule hpersist => absurd hpersist (hfails rule hrule)
    | delete ruleId a =>
      refine iff_of_true (fun key hf => ?_) trivial
      rw [stateAt_forgetRule] at hf
      split at hf
      · cases hf
      rename_i hof
      refine (hkeys key hf).filter fun hid => hof ?_
      obtain ⟨r, ag, t, hkey⟩ := hi key hf
      rw [← (stateKey_keyFields hkey).1, hid]
      exact ofRule_stateKey ..
    | deleteFails => exact iff_of_true hkeys trivial
  | evaluate agentId metrics now =>
    have hrules : (s.store.manager.evaluate agentId metrics now).1.rules = s.store.manager.rules := by
      rw [evaluate_manager]
    rw [hrules]
    exact noStranded_evaluate now hkeys
  | ack ruleId agentId target =>
    have hack := ack_states s.store.manager ruleId agentId target
    have hrules : (s.store.manager.ack ruleId agentId target).2.rules = s.store.manager.rules := by rw [hack.1]
    refine iff_of_true (fun key hf => ?_) trivial
    rw [hack.2] at hf
    rw [hrules]
    exact hkeys key hf

/-- **Stranded alerts.** In every run of calls each active alert belongs to a stored rule that matches its agent and its
target, in each state, exactly when no upsert narrows such a rule away and no separator in a rule id or an agent id
gives an alert to another triple. -/
theorem noStranded_iff (lib : JsonLib) (notifiers : List Notifier) (files : String → Option String) (run : List Op) :
    Always (Session.step lib) NoStranded (.new notifiers files) run ↔
      Guarded (Session.step lib) (CallCovers lib) (.new notifiers files) run := by
  have hkeys : KeysJoined (.new notifiers files) := fun key hf => by cases hf
  have hnone : NoStranded (.new notifiers files) := nofun
  have hinv : ∀ s op s', KeysJoined s → Session.step lib s op = some s' → KeysJoined s' :=
    fun s op s' hi h => hi.step h
  exact always_iff_guarded hinv (fun s op s' hi hs h => noStranded_step hi hs h) hkeys hnone

end

/-! ## A narrowed rule -/

def downText : String := "\x7b\"id\":\"down\",\"on_failure\":true\x7d"

def narrowedText : String := "\x7b\"id\":\"down\",\"on_failure\":true,\"agent_id\":\"core\"\x7d"

/-- The library on the two texts. -/
def downLib : JsonLib :=
  { tableLib with
    parse := fun text =>
      if text = downText then .ok (.object [("id", .string "down"), ("on_failure", .bool true)])
      else if text = narrowedText then
        .ok (.object [("agent_id", .string "core"), ("id", .string "down"), ("on_failure", .bool true)])
      else .error (.parseError "syntax error") }

/-- A rule fires on a failed probe of agent `edge` and is then narrowed to agent `core`: the alert stays active. -/
theorem narrowed_rule_strands_alert :
    let run : List Op := [.store (.upsert downText ⟨true, true, none⟩), .evaluate "edge" [{ target := "dns" }] 1000,
      .store (.upsert narrowedText ⟨true, true, none⟩), .evaluate "edge" [{ target := "dns", success := true }] 2000]
    let last := runEvents (Session.step downLib) (.new [] fun _ => none) run
    (last.map fun s => s.store.manager.activeAlerts.map fun e => (e.ruleId, e.agentId, e.target)) =
        some [("down", "edge", "dns")] ∧
      (last.map fun s => s.store.manager.rules.map fun r => (r.id, r.agentId)) = some [("down", "core")] ∧
      ¬Always (Session.step downLib) NoStranded (.new [] fun _ => none) run := by
  intro run last
  have hactive : (last.map fun s => s.store.manager.activeAlerts.map fun e => (e.ruleId, e.agentId, e.target)) =
      some [("down", "edge", "dns")] := by decide +kernel
  have hrules : (last.map fun s => s.store.manager.rules.map fun r => (r.id, r.agentId)) = some [("down", "core")] := by
    decide +kernel
  refine ⟨hactive, hrules, fun h => ?_⟩
  obtain ⟨s, hs, hactive⟩ := Option.map_eq_some_iff.1 hactive
  rw [hs] at hrules
  obtain ⟨e, he, hfields⟩ := List.map_eq_singleton_iff.1 hactive
  obtain ⟨r, hr, hrule⟩ := List.map_eq_singleton_iff.1 (Option.some.inj hrules)
  obtain ⟨r', hr', -, hagent, -⟩ := h.last hs e (by rw [he]; exact List.mem_singleton_self e)
  rw [hr, List.mem_singleton] at hr'
  simp only [Prod.mk.injEq] at hfields hrule
  rw [hr', AlertRule.matchesAgent, hrule.2, hfields.2.1] at hagent
  exact absurd hagent (by decide)

end PudimNetMon.Alerting
