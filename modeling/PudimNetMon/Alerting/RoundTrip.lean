import PudimNetMon.Alerting.Calls

/-!
# Rules are read back as they were written (`alert_manager.cpp`)

In every session the rules have passed `ParseRule` once, and what `WriteRulesFileLocked` writes of them is read back
as the same rules in the same order, with the same webhook (`rules_roundTrip`).
-/

namespace PudimNetMon.Alerting

section

variable (lib : JsonLib)

/-- The text of the manager's rules, once all of it is in a file, gives any manager the same rules and webhook. -/
def RoundTrips (s : Store) : Prop :=
  ∀ (a : WriteAnswers) (path : String) (written : Store), a.reached = none →
    writeRulesFileLocked lib s a s.manager.rules path = (.ok, written) →
      ∃ text, written.files path = some text ∧ ∀ m : AlertManager, ∃ loaded,
        loadRulesFromJson lib m text = (.ok, loaded) ∧ loaded.rules = s.manager.rules ∧
          loaded.webhookUrl = s.manager.webhookUrl

variable {lib} (hlib : lib.Lawful) {s : Store}

include hlib

theorem roundTrips_of_storable (h : ∀ r ∈ s.manager.rules, r.Storable) : RoundTrips lib s := by
  intro a path written hreached hwrite
  unfold writeRulesFileLocked at hwrite
  split at hwrite
  · cases hwrite
  split at hwrite
  · cases hwrite
  rename_i text hdump
  have hread := readRules_dump hlib h hdump
  have hcontent : a.content (text ++ "\n") = text ++ "\n" := by rw [WriteAnswers.content, hreached]
  have hfile : written = { s with files := Function.update s.files path (some (text ++ "\n")) } := by
    rw [← hcontent]
    exact (Prod.mk.inj hwrite).2.symm
  subst hfile
  refine ⟨text ++ "\n", Function.update_self .., fun m => ?_⟩
  rcases loadRulesFromJson_eq lib m (text ++ "\n") with ⟨rules, webhookUrl, hread', hload⟩ | ⟨hnone, -⟩
  · cases hread.symm.trans hread'
    exact ⟨_, hload, rfl, rfl⟩
  · exact absurd hread (hnone _ _)

/-- A call of the rule store keeps the rules storable. -/
theorem StoreStep.storable {c : Call} {reply : Reply} {m : AlertManager} (hstep : StoreStep lib s c reply m)
    (h : ∀ r ∈ s.manager.rules, r.Storable) : ∀ r ∈ m.rules, r.Storable := by
  cases hstep with
  | load path opens text rules webhookUrl htext hread => exact storable_of_readRules hlib hread
  | loadFails => exact h
  | upsert ruleJson a rule hreads hpersists =>
    obtain ⟨doc, hdoc, -, hrule⟩ := hreads
    intro r hr
    rcases mem_upsertInto hr with rfl | hr
    · exact storable_of_parseRule (hlib.parse_wellFormed _ _ hdoc) hrule
    · exact h r hr
  | upsertFails => exact h
  | delete ruleId a hdeletes => exact fun r hr => h r (List.mem_filter.1 hr).1
  | deleteFails => exact h

theorem OpStep.storable {op : Op} {m : AlertManager} {entries : List Entry} (hstep : OpStep lib s op m entries)
    (h : ∀ r ∈ s.manager.rules, r.Storable) : ∀ r ∈ m.rules, r.Storable := by
  cases hstep with
  | load json rules webhookUrl hread => exact storable_of_readRules hlib hread
  | refused => exact h
  | store c reply manager hstep => exact hstep.storable hlib h
  | evaluate agentId metrics now =>
    rw [evaluate_manager]
    exact h
  | ack ruleId agentId target =>
    dsimp only [AlertManager.ack]
    split
    · exact h
    · split <;> exact h

/-- **Main.** In every state of every session, what is written of the rules is read back as it was. -/
theorem rules_roundTrip (notifiers : List Notifier) (files : String → Option String) (ops : List Op) :
    Always (Session.step lib) (fun s => RoundTrips lib s.store) (Session.new notifiers files) ops := by
  have hstep : ∀ (s : Session) (op : Op) (s' : Session), (∀ r ∈ s.store.manager.rules, r.Storable) →
      s.step lib op = some s' → ∀ r ∈ s'.store.manager.rules, r.Storable := by
    intro s op s' h hs
    obtain ⟨entries, hop, -⟩ := session_step hs
    exact hop.storable hlib h
  exact always_of_inv hstep (fun s h => roundTrips_of_storable hlib h) nofun

end

/-- The loss rule is loaded from the interface and read back. -/
theorem rules_roundTrip_loss :
    Always (Session.step tableLib) (fun s => RoundTrips tableLib s.store) (Session.new [.log] emptyRules)
      [.store (.load "rules.json" true), .store (.upsert lossRuleText ⟨true, true, none⟩)] :=
  rules_roundTrip lawful_tableLib _ _ _

end PudimNetMon.Alerting
