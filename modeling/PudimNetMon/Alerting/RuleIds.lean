import PudimNetMon.Alerting.Calls

/-!
# The ids of the stored rules

A rule's id is meant to be unique. `UpsertRule` replaces the first rule of an id and `DeleteRule` erases all of them;
`LoadRulesFromJson` takes every rule of its document, whatever ids the others have.

- `upsertInto_own`, `upsertInto_others`: an upsert stores its rule once and leaves the others in their order;
- `rule_ids_iff`: in a run of calls the ids are distinct, and the calls do what they promise, exactly when each document
  that is loaded has distinct ids.
-/

namespace PudimNetMon.Alerting

/-- The ids are pairwise distinct. -/
def DistinctIds (rules : List AlertRule) : Prop := (rules.map AlertRule.id).Nodup

instance (rules : List AlertRule) : Decidable (DistinctIds rules) := inferInstanceAs (Decidable (List.Nodup _))

/-! ## Upsert -/

section

variable {rule : AlertRule} {rules : List AlertRule}

/-- The others and their order stay. -/
theorem upsertInto_others (rule : AlertRule) (rules : List AlertRule) :
    ((upsertInto rule rules).filter fun r => r.id ≠ rule.id) = rules.filter fun r => r.id ≠ rule.id := by
  induction rules with
  | nil => simp [upsertInto]
  | cons r rules ih =>
    unfold upsertInto
    split
    · rename_i hid
      simp [hid]
    · rename_i hid
      rw [List.filter_cons_of_pos (by simpa using hid), List.filter_cons_of_pos (by simpa using hid), ih]

/-- The rule is stored once. -/
theorem upsertInto_own (h : DistinctIds rules) :
    ((upsertInto rule rules).filter fun r => r.id = rule.id) = [rule] := by
  induction rules with
  | nil => simp [upsertInto]
  | cons r rules ih =>
    obtain ⟨hnew, hrest⟩ := List.nodup_cons.1 h
    unfold upsertInto
    split
    · rename_i hid
      have hnone : (rules.filter fun r => r.id = rule.id) = [] := by
        refine List.filter_eq_nil_iff.2 fun r' hr' he => hnew ?_
        rw [hid, ← of_decide_eq_true he]
        exact List.mem_map_of_mem hr'
      rw [List.filter_cons_of_pos (by simp), hnone]
    · rename_i hid
      rw [List.filter_cons_of_neg (by simpa using hid), ih hrest]

theorem upsertInto_ids (rule : AlertRule) (rules : List AlertRule) :
    (upsertInto rule rules).map AlertRule.id =
      if rule.id ∈ rules.map AlertRule.id then rules.map AlertRule.id else rules.map AlertRule.id ++ [rule.id] := by
  induction rules with
  | nil => simp [upsertInto]
  | cons r rules ih =>
    unfold upsertInto
    by_cases hid : r.id = rule.id
    · simp [hid]
    · have hmem : rule.id ∈ (r :: rules).map AlertRule.id ↔ rule.id ∈ rules.map AlertRule.id := by
        simp [Ne.symm hid]
      rw [if_neg hid, List.map_cons, ih]
      simp only [hmem]
      split <;> simp

theorem DistinctIds.upsertInto (h : DistinctIds rules) : DistinctIds (upsertInto rule rules) := by
  unfold DistinctIds
  rw [upsertInto_ids]
  split
  · exact h
  · rename_i hnew
    apply List.nodup_append.2
    refine ⟨h, List.nodup_singleton _, fun id hid id' hid' he => hnew ?_⟩
    rw [← List.mem_singleton.1 hid', ← he]
    exact hid

theorem DistinctIds.filter (h : DistinctIds rules) (p : AlertRule → Bool) : DistinctIds (rules.filter p) :=
  List.Nodup.sublist (List.filter_sublist.map _) h

end

/-! ## Runs -/

section

variable (lib : JsonLib)

/-- A document that is loaded has distinct ids. -/
def LoadsDistinct (s : Session) : Op → Prop
  | .loadJson json => ∀ rules webhookUrl, readRules lib json = .ok (.ok (rules, webhookUrl)) → DistinctIds rules
  | .store (.load path opens) => ∀ text rules webhookUrl, s.store.readable path opens = some text →
      readRules lib text = .ok (.ok (rules, webhookUrl)) → DistinctIds rules
  | _ => True

/-- An upsert that goes through leaves its rule once and the others in their order; a delete leaves no rule of its
id. -/
def KeepsPromise (s : Session) : Op → Prop
  | .store (.upsert ruleJson a) => ∀ rule, ReadsRule lib ruleJson rule → (upsertRule lib s.store ruleJson a).1 = .ok →
      ((upsertRule lib s.store ruleJson a).2.manager.rules.filter fun r => r.id = rule.id) = [rule] ∧
        ((upsertRule lib s.store ruleJson a).2.manager.rules.filter fun r => r.id ≠ rule.id) =
          s.store.manager.rules.filter fun r => r.id ≠ rule.id
  | .store (.delete ruleId a) => (deleteRule lib s.store ruleId a).1 = .ok →
      ∀ r ∈ (deleteRule lib s.store ruleId a).2.manager.rules, r.id ≠ ruleId
  | _ => True

/-- The stored ids are distinct. -/
def RulesDistinct (s : Session) : Prop := DistinctIds s.store.manager.rules

variable {lib} {s s' : Session}

/-- A call keeps the ids distinct exactly when it loads no document with an id twice. -/
theorem rulesDistinct_step {op : Op} (hs : RulesDistinct s) (h : s.step lib op = some s') :
    RulesDistinct s' ↔ LoadsDistinct lib s op := by
  obtain ⟨entries, hop, -⟩ := session_step h
  unfold RulesDistinct at hs ⊢
  generalize s'.store.manager = manager at hop ⊢
  cases hop with
  | load json rules webhookUrl hread =>
    refine ⟨fun hd rules' webhookUrl' hread' => ?_, fun hl => hl rules webhookUrl hread⟩
    cases hread.symm.trans hread'
    exact hd
  | refused json hread => exact iff_of_true hs fun rules webhookUrl hr => absurd hr (hread rules webhookUrl)
  | store c reply manager hc =>
    cases hc with
    | load path opens text rules webhookUrl htext hread =>
      refine ⟨fun hd text' rules' webhookUrl' htext' hread' => ?_, fun hl => hl text rules webhookUrl htext hread⟩
      cases htext.symm.trans htext'
      cases hread.symm.trans hread'
      exact hd
    | loadFails path opens reply hne hfails =>
      exact iff_of_true hs fun text rules webhookUrl ht hr => absurd hr (hfails text rules webhookUrl ht)
    | upsert => exact iff_of_true hs.upsertInto trivial
    | upsertFails => exact iff_of_true hs trivial
    | delete => exact iff_of_true (hs.filter _) trivial
    | deleteFails => exact iff_of_true hs trivial
  | evaluate agentId metrics now =>
    rw [evaluate_manager]
    exact iff_of_true hs trivial
  | ack ruleId agentId target =>
    rw [(ack_states s.store.manager ruleId agentId target).1]
    exact iff_of_true hs trivial

/-- With distinct ids, a call does what it promises. -/
theorem RulesDistinct.keepsPromise (hs : RulesDistinct s) : ∀ op, KeepsPromise lib s op
  | .loadJson _ => trivial
  | .evaluate .. => trivial
  | .ack .. => trivial
  | .store (.load ..) => trivial
  | .store (.upsert ruleJson a) => by
    intro rule hrule hok
    have hstep := upsert_step lib s.store ruleJson a
    rw [hok] at hstep
    generalize (upsertRule lib s.store ruleJson a).2.manager = manager at hstep ⊢
    cases hstep with
    | upsert _ _ rule' hrule' =>
      obtain ⟨doc, hdoc, -, hparse⟩ := hrule
      obtain ⟨doc', hdoc', -, hparse'⟩ := hrule'
      cases hdoc.symm.trans hdoc'
      cases hparse.symm.trans hparse'
      exact ⟨upsertInto_own hs, upsertInto_others rule s.store.manager.rules⟩
    | upsertFails _ _ _ hne => exact absurd rfl hne
  | .store (.delete ruleId a) => by
    intro hok
    have hstep := delete_step lib s.store ruleId a
    rw [hok] at hstep
    generalize (deleteRule lib s.store ruleId a).2.manager = manager at hstep ⊢
    cases hstep with
    | delete =>
      intro r hr
      exact of_decide_eq_true (List.mem_filter.1 hr).2
    | deleteFails _ _ _ hne => exact absurd rfl hne

/-- **Rule ids.** In every run of calls the ids are distinct in each state, and each call does what it promises, exactly
when each document that is loaded has distinct ids. -/
theorem rule_ids_iff (lib : JsonLib) (notifiers : List Notifier) (files : String → Option String) (run : List Op) :
    (Always (Session.step lib) RulesDistinct (.new notifiers files) run ∧
        Guarded (Session.step lib) (KeepsPromise lib) (.new notifiers files) run) ↔
      Guarded (Session.step lib) (LoadsDistinct lib) (.new notifiers files) run := by
  have hnew : RulesDistinct (.new notifiers files) := List.nodup_nil
  have hinv : ∀ s op s', True → Session.step lib s op = some s' → True := fun _ _ _ _ _ => trivial
  have hiff : Always (Session.step lib) RulesDistinct (.new notifiers files) run ↔
      Guarded (Session.step lib) (LoadsDistinct lib) (.new notifiers files) run :=
    always_iff_guarded hinv (fun s op s' _ hs h => rulesDistinct_step hs h) trivial hnew
  refine ⟨fun h => hiff.1 h.1, fun h => ⟨hiff.2 h, ?_⟩⟩
  have hstep : ∀ s op s', RulesDistinct s → LoadsDistinct lib s op → s.step lib op = some s' → RulesDistinct s' :=
    fun s op s' hs hl he => (rulesDistinct_step hs he).2 hl
  exact guarded_of_guarded hstep (fun s op _ hs _ _ => hs.keepsPromise op) hnew h

end

/-! ## One id twice -/

def twiceText : String :=
  "\x7b\"rules\":[\x7b\"id\":\"p1\",\"metric\":\"packet_loss_pct\"\x7d," ++
    "\x7b\"id\":\"p1\",\"metric\":\"rtt_ms\"\x7d]\x7d"

def twiceDoc : Json :=
  .object [("rules", .array [.object [("id", .string "p1"), ("metric", .string "packet_loss_pct")],
    .object [("id", .string "p1"), ("metric", .string "rtt_ms")]])]

def twiceLib : JsonLib :=
  { tableLib with parse := fun text => if text = twiceText then .ok twiceDoc else tableParse text }

/-- A rules file with one id twice is loaded; an upsert of that id then replaces the first of the two. -/
theorem duplicate_id_loaded :
    let loaded := runEvents (Session.step twiceLib) (.new [] fun _ => none) [.loadJson twiceText]
    let upserted := runEvents (Session.step twiceLib) (.new [] fun _ => none)
      [.loadJson twiceText, .store (.upsert lossRuleText ⟨true, true, none⟩)]
    (loaded.map fun s => s.store.manager.rules.map AlertRule.id) = some ["p1", "p1"] ∧
      (upserted.map fun s => s.store.manager.rules.map AlertRule.metricField) = some ["packet_loss_pct", "rtt_ms"] ∧
      ¬Always (Session.step twiceLib) RulesDistinct (.new [] fun _ => none) [.loadJson twiceText] := by
  intro loaded upserted
  have hids : (loaded.map fun s => s.store.manager.rules.map AlertRule.id) = some ["p1", "p1"] := by decide +kernel
  refine ⟨hids, by decide +kernel, fun h => ?_⟩
  obtain ⟨s, hs, hrules⟩ := Option.map_eq_some_iff.1 hids
  have hdistinct : (s.store.manager.rules.map AlertRule.id).Nodup := h.last hs
  rw [hrules] at hdistinct
  exact absurd hdistinct (by decide)

end PudimNetMon.Alerting
