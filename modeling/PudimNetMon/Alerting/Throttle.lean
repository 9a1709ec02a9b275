import PudimNetMon.Alerting.Acknowledge
import PudimNetMon.Alerting.RuleIds

/-!
# Repeated notifications (`alert_manager.cpp`)

A state remembers the clock reading of its last notification, and a rule that is still violated notifies again once
its repeat interval is over. `Throttled` says what the state of a key has to do with the log behind some call.

- `Throttled.visit`: a visit keeps it, if only the rule itself reaches the key;
- `repeat_throttle`: as long as a rule is stored, consecutive firing notifications of a key of its own are its repeat
  interval apart.
-/

namespace PudimNetMon.Alerting

/-- The clock readings of two notifications are the rule's repeat interval apart. -/
def Apart (rule : AlertRule) (e e' : Entry) : Prop :=
  ∀ n n', e = .emitted n → e' = .emitted n' → rule.repeatIntervalSec * 1000 ≤ n'.timeMs - n.timeMs

/-- The firing notifications of the key are apart, and the state remembers the latest one. -/
structure Throttled (rule : AlertRule) (key : String) (log : List Entry) (states : States) : Prop where
  spaced : Spaced (Fires key) (Ends key) (Apart rule) log
  latest : ∀ n, Latest (Fires key) (Ends key) log (.emitted n) →
    (stateAt states key).firing = true ∧ (stateAt states key).lastNotifiedMs = n.timeMs

section

variable {rule : AlertRule} {key : String} {log : List Entry} {states states' : States}

theorem Throttled.new (rule : AlertRule) (key : String) (states : States) : Throttled rule key [] states :=
  ⟨spaced_nil, fun _ h => absurd h not_latest_nil⟩

/-- The firing flag and the clock reading stay. -/
theorem Throttled.same (h : Throttled rule key log states)
    (hfiring : (stateAt states' key).firing = (stateAt states key).firing)
    (hlast : (stateAt states' key).lastNotifiedMs = (stateAt states key).lastNotifiedMs) :
    Throttled rule key log states' := by
  refine ⟨h.spaced, fun n hn => ?_⟩
  rw [hfiring, hlast]
  exact h.latest n hn

/-- Another entry: the end of the alert, or one that keeps the state. -/
theorem Throttled.other (h : Throttled rule key log states) {e : Entry} (hfires : ¬Fires key e)
    (hstate : ¬Ends key e → stateAt states' key = stateAt states key) : Throttled rule key (log ++ [e]) states' := by
  refine ⟨spaced_snoc.2 ⟨h.spaced, fun he => absurd he hfires⟩, fun n hn => ?_⟩
  rcases latest_snoc.1 hn with ⟨he, -⟩ | ⟨-, hnot, hn⟩
  · exact absurd he hfires
  · rw [hstate hnot]
    exact h.latest n hn

/-- A firing notification, at the clock reading that the state remembers. -/
theorem Throttled.fires (h : Throttled rule key log states) {n : AlertNotification} (hfires : Fires key (.emitted n))
    (hapart : (stateAt states key).firing = true →
      rule.repeatIntervalSec * 1000 ≤ n.timeMs - (stateAt states key).lastNotifiedMs)
    (hfiring : (stateAt states' key).firing = true) (hlast : (stateAt states' key).lastNotifiedMs = n.timeMs) :
    Throttled rule key (log ++ [.emitted n]) states' := by
  refine ⟨spaced_snoc.2 ⟨h.spaced, fun _ e' he' => ?_⟩, fun n' hn' => ?_⟩
  · rintro n₁ n₂ rfl hn₂
    cases hn₂
    obtain ⟨hf, ht⟩ := h.latest n₁ he'
    rw [← ht]
    exact hapart hf
  · rcases latest_snoc.1 hn' with ⟨-, he⟩ | ⟨hnot, -⟩
    · cases he
      exact ⟨hfiring, hlast⟩
    · exact absurd hfires hnot

/-! ## Visits -/

variable {s : EvalState} {x : WorkItem}

/-- A visit that notifies of a firing alert. -/
theorem Throttled.emitFiring (h : Throttled rule key log s.states) {record : AlertRecord}
    (hstatus : record.status = "firing") {st : FiringState} (hfiring : st.firing = true)
    (hlast : st.lastNotifiedMs = record.timeMs)
    (hapart : (makeNotification record).key = key → (stateAt s.states key).firing = true →
      rule.repeatIntervalSec * 1000 ≤ record.timeMs - (stateAt s.states key).lastNotifiedMs) :
    Throttled rule key (log ++ [.emitted (makeNotification record)])
      (s.emit (makeNotification record).key st record 1).states := by
  by_cases hkey : (makeNotification record).key = key
  · have hstate : stateAt (s.emit (makeNotification record).key st record 1).states key = st := by
      rw [hkey]
      exact stateAt_insert s.states key st
    refine h.fires ⟨_, rfl, hstatus, hkey⟩ (hapart hkey) ?_ ?_
    · rw [hstate]
      exact hfiring
    · rw [hstate]
      exact hlast
  · refine h.other ?_ fun _ => stateAt_insert_ne st (Ne.symm hkey)
    rintro ⟨n, hn, -, hnkey⟩
    cases hn
    exact hkey hnkey

/-- A visit that notifies of a resolved alert. -/
theorem Throttled.emitResolved (h : Throttled rule key log s.states) {record : AlertRecord}
    (hstatus : record.status = "resolved") :
    Throttled rule key (log ++ [.emitted (makeNotification record)])
      (s.emit (makeNotification record).key {} record 0).states := by
  refine h.other ?_ fun hends => stateAt_insert_ne _ fun hkey => hends (.inl ⟨_, rfl, hstatus, hkey.symm⟩)
  rintro ⟨n, hn, hfiring, -⟩
  cases hn
  exact absurd (hstatus.symm.trans hfiring) (by decide)

/-- A visit, when only the rule itself reaches the key. -/
theorem Throttled.visit (h : Throttled rule key log s.states) (agentId : String) (now : Int)
    (hown : x.hits agentId key = true → x.2 = rule) :
    ∃ out, (evalRule agentId now x.1 s x.2).notifications = s.notifications ++ out ∧
      Throttled rule key (log ++ out.map .emitted) (evalRule agentId now x.1 s x.2).states := by
  have hstep := evalRule_step agentId now x.1 x.2 s
  generalize evalRule agentId now x.1 s x.2 = s' at hstep ⊢
  cases hstep with
  | skip => exact ⟨[], by simp, by simpa using h⟩
  | fire _ _ hf =>
    refine ⟨[_], rfl, h.emitFiring rfl rfl rfl fun hkey hfiring => ?_⟩
    have hquiet : (stateAt s.states key).firing = false := by rw [← hkey]; exact hf
    cases hfiring.symm.trans hquiet
  | renew happ _ hf hrepeat =>
    refine ⟨[_], rfl, h.emitFiring rfl hf rfl fun hkey _ => ?_⟩
    have hrule := hown (WorkItem.hits_iff.2 ⟨happ, hkey⟩)
    rw [hrule] at hrepeat
    rw [← hkey, hrule]
    exact hrepeat
  | resolve => exact ⟨[_], rfl, h.emitResolved rfl⟩
  | keep =>
    refine ⟨[], by simp, ?_⟩
    rw [List.map_nil, List.append_nil]
    have hstate : stateAt (s.states.insert (stateKey x.2.id agentId x.1.target)
        (stateAt s.states (stateKey x.2.id agentId x.1.target))) key = stateAt s.states key := by
      by_cases hkey : key = stateKey x.2.id agentId x.1.target
      · rw [hkey, stateAt_insert]
      · rw [stateAt_insert_ne _ hkey]
    exact h.same (by rw [hstate]) (by rw [hstate])

theorem Throttled.visits (h : Throttled rule key log s.states) (agentId : String) (now : Int) {xs : List WorkItem}
    (hown : ∀ x ∈ xs, x.hits agentId key = true → x.2 = rule) :
    ∃ out, (evalItems agentId now s xs).notifications = s.notifications ++ out ∧
      Throttled rule key (log ++ out.map .emitted) (evalItems agentId now s xs).states := by
  induction xs generalizing s log with
  | nil => exact ⟨[], by simp, by simpa using h⟩
  | cons x xs ih =>
    rw [List.forall_mem_cons] at hown
    obtain ⟨first, hfirst, h⟩ := h.visit agentId now hown.1
    obtain ⟨rest, hrest, h⟩ := ih h hown.2
    refine ⟨first ++ rest, by rw [evalItems_cons, hrest, hfirst, List.append_assoc], ?_⟩
    rw [List.map_append, ← List.append_assoc]
    exact h

end

/-! ## Runs -/

/-- The rule is stored, and the ids of the stored rules are distinct and hold no separator. -/
structure StoredPlain (rule : AlertRule) (s : Session) : Prop where
  stored : rule ∈ s.store.manager.rules
  distinct : DistinctIds s.store.manager.rules
  plain : ∀ r ∈ s.store.manager.rules, kSep ∉ r.id.toList

instance (rule : AlertRule) (s : Session) : Decidable (StoredPlain rule s) :=
  decidable_of_iff (rule ∈ s.store.manager.rules ∧ DistinctIds s.store.manager.rules ∧
      ∀ r ∈ s.store.manager.rules, kSep ∉ r.id.toList)
    ⟨fun ⟨h, hd, hp⟩ => ⟨h, hd, hp⟩, fun h => ⟨h.stored, h.distinct, h.plain⟩⟩

/-- Only the rule itself reaches a key of its own. -/
theorem StoredPlain.own {rule : AlertRule} {s : Session} (h : StoredPlain rule s) {agentId key : String}
    {metrics : List Metric} {x : WorkItem} (hx : x ∈ workItems s.store.manager.rules metrics)
    (hkey : OfRule rule.id key) (hhit : x.hits agentId key = true) : x.2 = rule := by
  obtain ⟨m, -, hx⟩ := List.mem_flatMap.1 hx
  obtain ⟨r, hr, rfl⟩ := List.mem_map.1 hx
  obtain ⟨rest, hrest⟩ := ofRule_iff.1 hkey
  -- both ids are what is in front of the first separator of the key
  have hid : r.id = rule.id := by
    have hjoin := congrArg String.toList (WorkItem.hits_iff.1 hhit).2
    rw [stateKey_toList, join3, hrest] at hjoin
    have hcut := congrArg (cut kSep) hjoin
    rw [cut_append (h.plain r hr), cut_append (h.plain rule h.stored), Option.some.injEq, Prod.mk.injEq] at hcut
    exact String.toList_injective hcut.1
  exact List.inj_on_of_nodup_map h.distinct hr h.stored hid

section

variable {lib : JsonLib} {rule : AlertRule} {key : String} {s s' : Session} {base seg : List Entry} {op : Op}

theorem Throttled.step (hkey : OfRule rule.id key) (hstored : StoredPlain rule s) (hlog : s.log = base ++ seg)
    (h : Throttled rule key seg s.store.manager.states) (hs : s.step lib op = some s') :
    ∃ seg', s'.log = base ++ seg' ∧ Throttled rule key seg' s'.store.manager.states := by
  obtain ⟨entries, hop, hlog'⟩ := session_step hs
  refine ⟨seg ++ entries, by rw [hlog', hlog, List.append_assoc], ?_⟩
  clear hlog' hlog
  generalize s'.store.manager = manager at hop ⊢
  have hloaded : ¬Fires key .loaded := by
    rintro ⟨n, hn, -⟩
    cases hn
  cases hop with
  | load => exact h.other hloaded fun hends => absurd (.inr (.inl rfl)) hends
  | refused => simpa using h
  | store c reply manager hc =>
    cases hc with
    | load => exact h.other hloaded fun hends => absurd (.inr (.inl rfl)) hends
    | loadFails _ _ _ hne => simpa [hne] using h
    | upsert => simpa [Call.entries] using h
    | upsertFails _ _ _ hne => simpa [hne] using h
    | delete ruleId a =>
      have hdeleted : ¬Fires key (.deleted ruleId) := by
        rintro ⟨n, hn, -⟩
        cases hn
      refine h.other hdeleted fun hends => ?_
      rw [stateAt_forgetRule, if_neg fun hof => hends (.inr (.inr ⟨ruleId, rfl, hof⟩))]
    | deleteFails _ _ _ hne => simpa [hne] using h
  | evaluate agentId metrics now =>
    rw [evaluate_manager]
    obtain ⟨out, hout, ht⟩ := Throttled.visits (s := s.store.manager.evalState) h agentId now
      fun x (hx : x ∈ workItems s.store.manager.rules metrics) => hstored.own hx hkey
    have hemitted : s.store.manager.emitted agentId metrics now = out := hout
    rw [hemitted]
    exact ht
  | ack ruleId agentId target =>
    rw [List.append_nil]
    refine h.same (by rw [(ack_states s.store.manager ruleId agentId target).2]) ?_
    rw [stateAt_ack]
    split <;> rfl

/-- **Repeat throttle.** From any state on, as long as a rule is stored among rules with distinct ids without
separators, consecutive firing notifications of a key of the rule, with no end of the alert between them, are the
rule's repeat interval apart. -/
theorem repeat_throttle (lib : JsonLib) (s : Session) (run : List Op) (rule : AlertRule) (agentId target : String)
    (h : Always (Session.step lib) (StoredPlain rule) s run) :
    Always (Session.step lib) (fun t => ∀ seg, t.log = s.log ++ seg →
      Spaced (Fires (stateKey rule.id agentId target)) (Ends (stateKey rule.id agentId target)) (Apart rule) seg)
      s run := by
  have hkey := ofRule_stateKey rule.id agentId target
  generalize stateKey rule.id agentId target = key at hkey ⊢
  have hstep : ∀ t op t',
      (∃ seg, t.log = s.log ++ seg ∧ Throttled rule key seg t.store.manager.states) → StoredPlain rule t →
      Session.step lib t op = some t' → ∃ seg, t'.log = s.log ++ seg ∧ Throttled rule key seg t'.store.manager.states :=
    fun t op t' ⟨seg, hlog, ht⟩ hstored hs => ht.step hkey hstored hlog hs
  refine always_of_guarded hstep (fun t ⟨seg, hlog, ht⟩ seg' hlog' => ?_)
    ⟨[], (List.append_nil _).symm, .new rule key _⟩ h.guarded
  rw [List.append_cancel_left (hlog'.symm.trans hlog)]
  exact ht.spaced

/-- Three failed probes: two notifications. -/
theorem repeat_throttle_three :
    let rule : AlertRule := { id := "down", name := "down", onFailure := true }
    let s : Session := { store := { manager := { rules := [rule] }, files := fun _ => none } }
    let failed : Metric := { target := "dns" }
    let run : List Op :=
      [.evaluate "edge" [failed] 1000, .evaluate "edge" [failed] 300999, .evaluate "edge" [failed, failed] 301000]
    ((runEvents (Session.step tableLib) s run).map fun t => (notificationsOf t.log).map AlertNotification.timeMs) =
        some [1000, 301000] ∧
      Always (Session.step tableLib) (fun t => ∀ seg, t.log = s.log ++ seg →
        Spaced (Fires (stateKey "down" "edge" "dns")) (Ends (stateKey "down" "edge" "dns")) (Apart rule) seg)
        s run := by
  intro rule s failed run
  have hstored : Always (Session.step tableLib) (StoredPlain rule) s run := by decide
  exact ⟨by decide, repeat_throttle tableLib s run rule "edge" "dns" hstored⟩

end

end PudimNetMon.Alerting
