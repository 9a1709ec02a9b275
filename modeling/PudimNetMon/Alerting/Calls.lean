import PudimNetMon.Alerting.Listing
import PudimNetMon.Alerting.RuleStore

/-!
# Sequences of calls on the alert manager (`alert_manager.h`)

A `Session` is a manager with its rules file and a log of what the calls gave out: the notifications of `Evaluate` and
the resets of states by a load or a delete. `StoreStep` says what a call on the rules does to the manager.

- `call_step`: every call of the rule store is one of its steps;
- `evaluate_manager`, `evaluate_notified`: `Evaluate` by its visits.
-/

namespace PudimNetMon.Alerting

/-! ## Calls on the rules -/

section

variable (lib : JsonLib)

/-- The text that a load reads. -/
def Store.readable (s : Store) (path : String) (opens : Bool) : Option String := if opens then s.files path else none

/-- The manager with the rules and the webhook of a document. -/
def AlertManager.withRules (m : AlertManager) (rules : List AlertRule) (webhookUrl : String) : AlertManager :=
  { m with
    rules, webhookUrl, states := ∅
    notifiers := .log :: if webhookUrl ≠ "" ∧ webhookUrl ≠ "log" then [Notifier.webhook webhookUrl] else [] }

/-- The write in front of a change goes through. -/
def Persists (s : Store) (a : WriteAnswers) (candidate : List AlertRule) : Prop :=
  (persist lib s a candidate).1 = .ok

/-- The rule of a JSON text. -/
def ReadsRule (ruleJson : String) (rule : AlertRule) : Prop :=
  ∃ doc, lib.parse ruleJson = .ok doc ∧ doc.isObject = true ∧ parseRule doc = .ok (.ok rule)

/-- A rule of the id is stored, and the rules without it are written. -/
def Deletes (s : Store) (ruleId : String) (a : WriteAnswers) : Prop :=
  ruleId ≠ "" ∧ (∃ r ∈ s.manager.rules, r.id = ruleId) ∧
    Persists lib s a (s.manager.rules.filter fun r => r.id ≠ ruleId)

/-- A call of the rule store: how it ends, and the manager it leaves. -/
inductive StoreStep (s : Store) : Call → Reply → AlertManager → Prop
  | load (path : String) (opens : Bool) (text : String) (rules : List AlertRule) (webhookUrl : String) :
      s.readable path opens = some text → readRules lib text = .ok (.ok (rules, webhookUrl)) →
      StoreStep s (.load path opens) .ok { s.manager.withRules rules webhookUrl with rulesPath := path }
  | loadFails (path : String) (opens : Bool) (reply : Reply) : reply ≠ .ok →
      (∀ text rules webhookUrl, s.readable path opens = some text →
        readRules lib text ≠ .ok (.ok (rules, webhookUrl))) →
      StoreStep s (.load path opens) reply s.manager
  | upsert (ruleJson : String) (a : WriteAnswers) (rule : AlertRule) :
      ReadsRule lib ruleJson rule → Persists lib s a (upsertInto rule s.manager.rules) →
      StoreStep s (.upsert ruleJson a) .ok { s.manager with rules := upsertInto rule s.manager.rules }
  | upsertFails (ruleJson : String) (a : WriteAnswers) (reply : Reply) : reply ≠ .ok →
      (∀ rule, ReadsRule lib ruleJson rule → ¬Persists lib s a (upsertInto rule s.manager.rules)) →
      StoreStep s (.upsert ruleJson a) reply s.manager
  | delete (ruleId : String) (a : WriteAnswers) : Deletes lib s ruleId a →
      StoreStep s (.delete ruleId a) .ok { s.manager with
        rules := s.manager.rules.filter fun r => r.id ≠ ruleId, states := forgetRule ruleId s.manager.states }
  | deleteFails (ruleId : String) (a : WriteAnswers) (reply : Reply) : reply ≠ .ok → ¬Deletes lib s ruleId a →
      StoreStep s (.delete ruleId a) reply s.manager

variable {lib} {s : Store}

theorem loadRulesFromJson_eq (lib : JsonLib) (m : AlertManager) (json : String) :
    (∃ rules webhookUrl, readRules lib json = .ok (.ok (rules, webhookUrl)) ∧
      loadRulesFromJson lib m json = (.ok, m.withRules rules webhookUrl)) ∨
    ((∀ rules webhookUrl, readRules lib json ≠ .ok (.ok (rules, webhookUrl))) ∧
      ∃ reply, reply ≠ .ok ∧ loadRulesFromJson lib m json = (reply, m)) := by
  unfold loadRulesFromJson
  cases readRules lib json with
  | error e => exact .inr ⟨nofun, .threw e, nofun, rfl⟩
  | ok result =>
    cases result with
    | error error => exact .inr ⟨nofun, .failed error, nofun, rfl⟩
    | ok loaded => exact .inl ⟨loaded.1, loaded.2, rfl, rfl⟩

theorem load_step (lib : JsonLib) (s : Store) (path : String) (opens : Bool) :
    StoreStep lib s (.load path opens) (loadRulesFromFile lib s path opens).1
      (loadRulesFromFile lib s path opens).2.manager := by
  unfold loadRulesFromFile
  split
  · rename_i hnone
    refine .loadFails _ _ _ nofun fun text _ _ htext => ?_
    exact nomatch htext.symm.trans hnone
  rename_i text htext
  rcases loadRulesFromJson_eq lib s.manager text with ⟨rules, webhookUrl, hread, hload⟩ | ⟨hread, reply, hne, hload⟩
  · rw [hload]
    exact .load path opens text rules webhookUrl htext hread
  · rw [hload]
    have hfails : ∀ text' rules webhookUrl, s.readable path opens = some text' →
        readRules lib text' ≠ .ok (.ok (rules, webhookUrl)) := by
      intro text' rules webhookUrl htext'
      cases htext.symm.trans htext'
      exact hread rules webhookUrl
    cases reply with
    | ok => exact absurd rfl hne
    | failed error => exact .loadFails _ _ _ hne hfails
    | threw e => exact .loadFails _ _ _ hne hfails

theorem persist_manager (lib : JsonLib) (s : Store) (a : WriteAnswers) (candidate : List AlertRule) :
    (persist lib s a candidate).2.manager = s.manager := by
  unfold persist writeRulesFileLocked
  split
  · rfl
  split
  · rfl
  split <;> rfl

theorem upsert_step (lib : JsonLib) (s : Store) (ruleJson : String) (a : WriteAnswers) :
    StoreStep lib s (.upsert ruleJson a) (upsertRule lib s ruleJson a).1 (upsertRule lib s ruleJson a).2.manager := by
  unfold upsertRule
  split
  · rename_i hparse
    refine .upsertFails _ _ _ nofun fun rule ⟨doc, hdoc, _⟩ => ?_
    exact nomatch hparse.symm.trans hdoc
  · rename_i hparse
    refine .upsertFails _ _ _ nofun fun rule ⟨doc, hdoc, _⟩ => ?_
    exact nomatch hparse.symm.trans hdoc
  rename_i doc hparse
  -- the document that is read is the one the text has
  have hread : ∀ rule, ReadsRule lib ruleJson rule → doc.isObject = true ∧ parseRule doc = .ok (.ok rule) := by
    rintro rule ⟨doc', hdoc, hobject, hrule⟩
    cases hparse.symm.trans hdoc
    exact ⟨hobject, hrule⟩
  split
  · rename_i hobject
    exact .upsertFails _ _ _ nofun fun rule hreads => by simp [(hread rule hreads).1] at hobject
  rename_i hobject
  split
  · rename_i hrule
    exact .upsertFails _ _ _ nofun fun rule hreads => nomatch hrule.symm.trans (hread rule hreads).2
  · rename_i hrule
    exact .upsertFails _ _ _ nofun fun rule hreads => nomatch hrule.symm.trans (hread rule hreads).2
  rename_i rule hrule
  dsimp only
  have hmanager := persist_manager lib s a (upsertInto rule s.manager.rules)
  split
  · rename_i t hpersist
    rw [hpersist] at hmanager
    rw [hmanager]
    exact .upsert ruleJson a rule ⟨doc, hparse, by simpa using hobject, hrule⟩ (by rw [Persists, hpersist])
  · rename_i reply t hne hpersist
    rw [hpersist] at hmanager
    rw [hmanager]
    refine .upsertFails _ _ _ hne fun rule' hreads => ?_
    cases hrule.symm.trans (hread rule' hreads).2
    rw [Persists, hpersist]
    exact hne

theorem delete_step (lib : JsonLib) (s : Store) (ruleId : String) (a : WriteAnswers) :
    StoreStep lib s (.delete ruleId a) (deleteRule lib s ruleId a).1 (deleteRule lib s ruleId a).2.manager := by
  unfold deleteRule
  split
  · rename_i hempty
    exact .deleteFails _ _ _ nofun fun hdel => hdel.1 (by simpa using hempty)
  rename_i hempty
  dsimp only
  split
  · rename_i hlength
    refine .deleteFails _ _ _ nofun fun ⟨_, ⟨r, hr, hid⟩, _⟩ => ?_
    have := List.length_filter_eq_length_iff.1 hlength r hr
    simp [hid] at this
  rename_i hlength
  have hstored : ∃ r ∈ s.manager.rules, r.id = ruleId := by
    by_contra hnone
    push Not at hnone
    exact hlength (congrArg List.length (List.filter_eq_self.2 fun r hr => by simpa using hnone r hr))
  have hmanager := persist_manager lib s a (s.manager.rules.filter fun r => r.id ≠ ruleId)
  split
  · rename_i t hpersist
    rw [hpersist] at hmanager
    rw [hmanager]
    exact .delete ruleId a ⟨fun he => hempty (by simp [he]), hstored, by rw [Persists, hpersist]⟩
  · rename_i reply t hne hpersist
    rw [hpersist] at hmanager
    rw [hmanager]
    refine .deleteFails _ _ _ hne fun hdel => ?_
    have := hdel.2.2
    rw [Persists, hpersist] at this
    exact hne this

/-- **The calls on the rules.** -/
theorem call_step (lib : JsonLib) (s : Store) (c : Call) :
    StoreStep lib s c (s.call lib c).1 (s.call lib c).2.manager := by
  cases c with
  | load path opens => exact load_step lib s path opens
  | upsert ruleJson a => exact upsert_step lib s ruleJson a
  | delete ruleId a => exact delete_step lib s ruleId a

end

/-! ## Forgotten states -/

/-- The key starts with the rule id and a separator. -/
def OfRule (ruleId key : String) : Prop := (ruleId ++ kKeySep).toList.isPrefixOf key.toList = true

instance (ruleId key : String) : Decidable (OfRule ruleId key) := inferInstanceAs (Decidable (_ = _))

theorem ofRule_iff {ruleId key : String} : OfRule ruleId key ↔ ∃ rest, key.toList = ruleId.toList ++ kSep :: rest := by
  unfold OfRule
  rw [List.isPrefixOf_iff_prefix]
  constructor
  · rintro ⟨rest, h⟩
    exact ⟨rest, by rw [← h]; simp [kKeySep, kSep]⟩
  · rintro ⟨rest, h⟩
    exact ⟨rest, by rw [h]; simp [kKeySep, kSep]⟩

theorem ofRule_stateKey (ruleId agentId target : String) : OfRule ruleId (stateKey ruleId agentId target) :=
  ofRule_iff.2 ⟨_, stateKey_toList ruleId agentId target⟩

theorem stateAt_forgetRule (ruleId : String) (s : States) (key : String) :
    stateAt (forgetRule ruleId s) key = if OfRule ruleId key then {} else stateAt s key := by
  have hlookup : (forgetRule ruleId s).lookup key = if OfRule ruleId key then none else s.lookup key := by
    apply Option.ext
    intro st
    rw [← mem_entries_iff, forgetRule, List.mem_filter, mem_entries_iff]
    by_cases h : OfRule ruleId key
    · have hprefix : (ruleId ++ kKeySep).toList.isPrefixOf key.toList = true := h
      rw [if_pos h, hprefix]
      simp
    · have hprefix : (ruleId ++ kKeySep).toList.isPrefixOf key.toList = false := Bool.eq_false_of_not_eq_true h
      rw [if_neg h, hprefix]
      simp
  unfold stateAt
  rw [hlookup]
  split <;> rfl

/-! ## Evaluate -/

/-- The notifications of an `Evaluate` call, in the order of the visits. -/
def AlertManager.emitted (mgr : AlertManager) (agentId : String) (metrics : List Metric) (now : Int) :
    List AlertNotification :=
  (evalItems agentId now mgr.evalState (workItems mgr.rules metrics)).notifications

/-- Each notification goes to each notifier. -/
theorem evaluate_notified (mgr : AlertManager) (agentId : String) (metrics : List Metric) (now : Int) :
    (mgr.evaluate agentId metrics now).2 =
      (mgr.emitted agentId metrics now).flatMap fun a => mgr.notifiers.map fun n => (a, n) := by
  unfold AlertManager.evaluate AlertManager.emitted
  split
  · rename_i h
    have hr : mgr.rules = [] := by simpa using h
    simp [hr, workItems_no_rules, AlertManager.evalState]
  · simp only [AlertManager.evalState, foldl_workItems]

/-- What `Evaluate` leaves alone. -/
theorem evaluate_manager (mgr : AlertManager) (agentId : String) (metrics : List Metric) (now : Int) :
    (mgr.evaluate agentId metrics now).1 =
      { mgr with
        states := (evalItems agentId now mgr.evalState (workItems mgr.rules metrics)).states
        history := (evalItems agentId now mgr.evalState (workItems mgr.rules metrics)).history
        alertsFiredTotal := (evalItems agentId now mgr.evalState (workItems mgr.rules metrics)).alertsFiredTotal } := by
  unfold AlertManager.evaluate
  split
  · rename_i h
    have hitems : workItems mgr.rules metrics = [] := by
      rw [List.isEmpty_iff.1 h]
      exact workItems_no_rules metrics
    rw [hitems]
    rfl
  · simp only [AlertManager.evalState, foldl_workItems]

/-! ## Sessions -/

inductive Op
  | loadJson (json : String)
  | store (c : Call)
  | evaluate (agentId : String) (metrics : List Metric) (now : Int)
  | ack (ruleId agentId target : String)

/-- What a call gives out. -/
inductive Entry
  | emitted (n : AlertNotification)
  | loaded
  | deleted (ruleId : String)
  deriving DecidableEq

structure Session where
  store : Store
  log : List Entry := []

/-- The resets of a call that goes through. -/
def Call.entries : Call → List Entry
  | .load _ _ => [.loaded]
  | .upsert _ _ => []
  | .delete ruleId _ => [.deleted ruleId]

/-- The manager before the first call, with notifiers that were added to it. -/
def Session.new (notifiers : List Notifier) (files : String → Option String) : Session :=
  { store := { manager := { notifiers }, files } }

def Session.step (lib : JsonLib) (s : Session) : Op → Option Session
  | .loadJson json =>
    match loadRulesFromJson lib s.store.manager json with
    | (reply, manager) =>
      some { store := { s.store with manager }, log := s.log ++ if reply = .ok then [.loaded] else [] }
  | .store c =>
    some { store := (s.store.call lib c).2, log := s.log ++ if (s.store.call lib c).1 = .ok then c.entries else [] }
  | .evaluate agentId metrics now =>
    some { store := { s.store with manager := (s.store.manager.evaluate agentId metrics now).1 }
           log := s.log ++ (s.store.manager.emitted agentId metrics now).map .emitted }
  | .ack ruleId agentId target =>
    some { s with store := { s.store with manager := (s.store.manager.ack ruleId agentId target).2 } }

/-- What a call does to the manager and gives out. -/
inductive OpStep (lib : JsonLib) (s : Store) : Op → AlertManager → List Entry → Prop
  | load (json : String) (rules : List AlertRule) (webhookUrl : String) :
      readRules lib json = .ok (.ok (rules, webhookUrl)) →
      OpStep lib s (.loadJson json) (s.manager.withRules rules webhookUrl) [.loaded]
  | refused (json : String) : (∀ rules webhookUrl, readRules lib json ≠ .ok (.ok (rules, webhookUrl))) →
      OpStep lib s (.loadJson json) s.manager []
  | store (c : Call) (reply : Reply) (manager : AlertManager) : StoreStep lib s c reply manager →
      OpStep lib s (.store c) manager (if reply = .ok then c.entries else [])
  | evaluate (agentId : String) (metrics : List Metric) (now : Int) :
      OpStep lib s (.evaluate agentId metrics now) (s.manager.evaluate agentId metrics now).1
        ((s.manager.emitted agentId metrics now).map .emitted)
  | ack (ruleId agentId target : String) :
      OpStep lib s (.ack ruleId agentId target) (s.manager.ack ruleId agentId target).2 []

/-- **The calls.** -/
theorem session_step {lib : JsonLib} {s s' : Session} {op : Op} (h : s.step lib op = some s') :
    ∃ entries, OpStep lib s.store op s'.store.manager entries ∧ s'.log = s.log ++ entries := by
  cases op with
  | loadJson json =>
    simp only [Session.step] at h
    rcases loadRulesFromJson_eq lib s.store.manager json with
      ⟨rules, webhookUrl, hread, hload⟩ | ⟨hread, reply, hne, hload⟩
    · rw [hload] at h
      cases h
      exact ⟨_, .load json rules webhookUrl hread, rfl⟩
    · rw [hload] at h
      cases h
      exact ⟨_, .refused json hread, by simp [hne]⟩
  | store c =>
    cases h
    exact ⟨_, .store c _ _ (call_step lib s.store c), rfl⟩
  | evaluate agentId metrics now =>
    cases h
    exact ⟨_, .evaluate agentId metrics now, rfl⟩
  | ack ruleId agentId target =>
    cases h
    exact ⟨_, .ack ruleId agentId target, by simp⟩

end PudimNetMon.Alerting
