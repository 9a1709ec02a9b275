import PudimNetMon.Alerting.Calls
import PudimNetMon.Lib.Log

/-!
# The life of an alert (`alert_manager.cpp`)

Over a run of calls the log of what was given out explains the manager: `Traced`.

- `Traced.emit`: one branch of the loop body that gives out a notification;
- `alert_lifecycle`: a resolved notification follows a firing one, the counter counts the firing ones, the history is
  the newest of all.
-/

namespace PudimNetMon.Alerting

/-- The key of the state a notification is about. -/
def AlertNotification.key (n : AlertNotification) : String := stateKey n.ruleId n.agentId n.target

def Entry.notification : Entry → Option AlertNotification
  | .emitted n => some n
  | _ => none

/-- A firing notification of the key. -/
def Fires (key : String) (e : Entry) : Prop := ∃ n, e = .emitted n ∧ n.status = "firing" ∧ n.key = key

/-- A resolved notification of the key. -/
def Resolves (key : String) (e : Entry) : Prop := ∃ n, e = .emitted n ∧ n.status = "resolved" ∧ n.key = key

/-- The key's state is gone: resolved, or reset by a load or a delete. -/
def Ends (key : String) (e : Entry) : Prop :=
  Resolves key e ∨ e = .loaded ∨ ∃ ruleId, e = .deleted ruleId ∧ OfRule ruleId key

/-- The notifications of a log. -/
def notificationsOf (log : List Entry) : List AlertNotification := log.filterMap Entry.notification

/-- The log explains the states, the counter and the history. -/
structure Traced (log : List Entry) (states : States) (history : List AlertRecord) (alertsFiredTotal : Nat) : Prop where
  firing : ∀ key, (stateAt states key).firing = true → Since (Fires key) (Ends key) log
  resolved : ∀ key, Preceded (Resolves key) (Fires key) (Ends key) log
  total : alertsFiredTotal = (notificationsOf log).countP fun n => n.status = "firing"
  history : history.map makeNotification = newest kMaxHistory (notificationsOf log)

theorem trimHistory_eq (h : List AlertRecord) : trimHistory h = newest kMaxHistory h := by
  unfold trimHistory
  split
  · rfl
  · rename_i hle
    exact (newest_of_length_le (Nat.not_lt.1 hle)).symm

section

variable {log : List Entry} {states : States} {history : List AlertRecord} {total : Nat} {s : EvalState}

theorem Traced.mono (h : Traced log states history total) {states' : States}
    (hsub : ∀ key, (stateAt states' key).firing = true → (stateAt states key).firing = true) :
    Traced log states' history total :=
  ⟨fun key hf => h.firing key (hsub key hf), h.resolved, h.total, h.history⟩

/-- A reset leaves states that it does not end. -/
theorem Traced.reset (h : Traced log states history total) {states' : States} {e : Entry} (he : e.notification = none)
    (hsub : ∀ key, (stateAt states' key).firing = true → (stateAt states key).firing = true ∧ ¬Ends key e) :
    Traced (log ++ [e]) states' history total := by
  have hnotifications : notificationsOf (log ++ [e]) = notificationsOf log := by
    simp [notificationsOf, he]
  refine ⟨fun key hf => ?_, fun key => ?_, ?_, ?_⟩
  · obtain ⟨hfiring, hends⟩ := hsub key hf
    exact since_snoc.2 (.inr ⟨h.firing key hfiring, hends⟩)
  · refine preceded_snoc.2 ⟨h.resolved key, fun ⟨n, hn, _⟩ => ?_⟩
    rw [hn] at he
    cases he
  · rw [hnotifications]
    exact h.total
  · rw [hnotifications]
    exact h.history

theorem history_emit (h : history.map makeNotification = newest kMaxHistory (notificationsOf log))
    (record : AlertRecord) :
    (trimHistory (history ++ [record])).map makeNotification =
      newest kMaxHistory (notificationsOf (log ++ [.emitted (makeNotification record)])) := by
  rw [trimHistory_eq, map_newest, List.map_append, h, newest_append_newest]
  simp [notificationsOf, Entry.notification]

/-- The branches that notify of a firing alert. -/
theorem Traced.emitFiring (h : Traced log s.states s.history s.alertsFiredTotal) {record : AlertRecord}
    (hstatus : record.status = "firing") (st : FiringState) :
    let s' := s.emit (makeNotification record).key st record 1
    Traced (log ++ [.emitted (makeNotification record)]) s'.states s'.history s'.alertsFiredTotal := by
  have hnot : ∀ key, ¬Resolves key (.emitted (makeNotification record)) := by
    rintro key ⟨n, hn, hresolved, -⟩
    cases hn
    exact absurd (hstatus.symm.trans hresolved) (by decide)
  refine ⟨fun key hf => since_snoc.2 ?_, fun key => ?_, ?_, history_emit h.history record⟩
  · by_cases hkey : key = (makeNotification record).key
    · exact .inl ⟨_, rfl, hstatus, hkey.symm⟩
    · refine .inr ⟨h.firing key ?_, ?_⟩
      · rwa [EvalState.emit, stateAt_insert_ne _ hkey] at hf
      · rintro (hresolves | hloaded | ⟨ruleId, hdeleted, -⟩)
        · exact hnot key hresolves
        · cases hloaded
        · cases hdeleted
  · exact preceded_snoc.2 ⟨h.resolved key, fun hresolves => absurd hresolves (hnot key)⟩
  · have hcount : (makeNotification record).status = "firing" := hstatus
    simp [EvalState.emit, h.total, notificationsOf, Entry.notification, hcount]

/-- The branch that notifies of a resolved alert. -/
theorem Traced.emitResolved (h : Traced log s.states s.history s.alertsFiredTotal) {record : AlertRecord}
    (hstatus : record.status = "resolved") (hfiring : (stateAt s.states (makeNotification record).key).firing = true) :
    let s' := s.emit (makeNotification record).key {} record 0
    Traced (log ++ [.emitted (makeNotification record)]) s'.states s'.history s'.alertsFiredTotal := by
  refine ⟨fun key hf => since_snoc.2 (.inr ?_), fun key => ?_, ?_, history_emit h.history record⟩
  · by_cases hkey : key = (makeNotification record).key
    · rw [hkey, EvalState.emit, stateAt_insert] at hf
      cases hf
    · refine ⟨h.firing key ?_, ?_⟩
      · rwa [EvalState.emit, stateAt_insert_ne _ hkey] at hf
      · rintro (⟨n, hn, -, hnkey⟩ | hloaded | ⟨ruleId, hdeleted, -⟩)
        · cases hn
          exact hkey hnkey.symm
        · cases hloaded
        · cases hdeleted
  · refine preceded_snoc.2 ⟨h.resolved key, ?_⟩
    rintro ⟨n, hn, -, rfl⟩
    cases hn
    exact h.firing _ hfiring
  · have hcount : (makeNotification record).status = "resolved" := hstatus
    simp [EvalState.emit, h.total, notificationsOf, Entry.notification, hcount]

/-- What a visit gives out, and what it leaves explained. -/
theorem Traced.evalRule (h : Traced log s.states s.history s.alertsFiredTotal) (agentId : String) (now : Int)
    (x : WorkItem) :
    ∃ out, (evalRule agentId now x.1 s x.2).notifications = s.notifications ++ out ∧
      Traced (log ++ out.map .emitted) (evalRule agentId now x.1 s x.2).states (evalRule agentId now x.1 s x.2).history
        (evalRule agentId now x.1 s x.2).alertsFiredTotal := by
  have hstep := evalRule_step agentId now x.1 x.2 s
  generalize Alerting.evalRule agentId now x.1 s x.2 = s' at hstep ⊢
  cases hstep with
  | skip => exact ⟨[], by simp, by simpa using h⟩
  | fire => exact ⟨[_], rfl, h.emitFiring rfl _⟩
  | renew => exact ⟨[_], rfl, h.emitFiring rfl _⟩
  | resolve _ _ hf => exact ⟨[_], rfl, h.emitResolved rfl hf⟩
  | keep =>
    refine ⟨[], by simp, ?_⟩
    rw [List.map_nil, List.append_nil]
    refine h.mono fun key hf => ?_
    by_cases hkey : key = stateKey x.2.id agentId x.1.target
    · rwa [hkey, stateAt_insert, ← hkey] at hf
    · rwa [stateAt_insert_ne _ hkey] at hf

/-- What the visits give out, and what they leave explained. -/
theorem Traced.evalItems (h : Traced log s.states s.history s.alertsFiredTotal) (agentId : String) (now : Int)
    (xs : List WorkItem) :
    ∃ out, (evalItems agentId now s xs).notifications = s.notifications ++ out ∧
      Traced (log ++ out.map .emitted) (evalItems agentId now s xs).states (evalItems agentId now s xs).history
        (evalItems agentId now s xs).alertsFiredTotal := by
  induction xs generalizing s log with
  | nil => exact ⟨[], by simp, by simpa using h⟩
  | cons x xs ih =>
    obtain ⟨first, hfirst, h⟩ := h.evalRule agentId now x
    obtain ⟨rest, hrest, h⟩ := ih h
    refine ⟨first ++ rest, ?_, ?_⟩
    · rw [evalItems_cons, hrest, hfirst, List.append_assoc]
    · rw [List.map_append, ← List.append_assoc]
      exact h

end

/-! ## Runs -/

/-- The log explains the manager. -/
def Explained (s : Session) : Prop :=
  Traced s.log s.store.manager.states s.store.manager.history s.store.manager.alertsFiredTotal

theorem Explained.step {lib : JsonLib} {s s' : Session} {op : Op} (h : Explained s) (hs : s.step lib op = some s') :
    Explained s' := by
  obtain ⟨entries, hop, hlog⟩ := session_step hs
  unfold Explained at h ⊢
  rw [hlog]
  generalize s'.store.manager = manager at hop ⊢
  have hcleared : ∀ key, (stateAt (∅ : States) key).firing = true →
      (stateAt s.store.manager.states key).firing = true ∧ ¬Ends key .loaded := fun key hf => by cases hf
  cases hop with
  | load => exact h.reset rfl hcleared
  | refused => simpa using h
  | store c reply manager hc =>
    cases hc with
    | load => exact h.reset rfl hcleared
    | loadFails _ _ _ hne => simpa [hne] using h
    | upsert => simpa [Call.entries] using h
    | upsertFails _ _ _ hne => simpa [hne] using h
    | delete ruleId a =>
      refine h.reset rfl fun key hf => ?_
      rw [stateAt_forgetRule] at hf
      split at hf
      · cases hf
      · rename_i hof
        refine ⟨hf, ?_⟩
        rintro (⟨n, hn, -⟩ | hloaded | ⟨ruleId', hdeleted, hof'⟩)
        · cases hn
        · cases hloaded
        · cases hdeleted
          exact hof hof'
    | deleteFails _ _ _ hne => simpa [hne] using h
  | evaluate agentId metrics now =>
    rw [evaluate_manager]
    obtain ⟨out, hout, ht⟩ := Traced.evalItems (s := s.store.manager.evalState) h agentId now
      (workItems s.store.manager.rules metrics)
    have hemitted : s.store.manager.emitted agentId metrics now = out := hout
    rw [hemitted]
    exact ht
  | ack ruleId agentId target =>
    have hack := ack_states s.store.manager ruleId agentId target
    rw [hack.1, List.append_nil]
    exact h.mono fun key hf => by rwa [hack.2] at hf

/-- **Lifecycle.** In every state of every run of calls a resolved notification of a key follows a firing one of that
key, with no resolved one of it and no reset of its state between; the counter is the number of firing notifications;
the history is the newest notifications, as their records, and is listed from the newest one on. -/
theorem alert_lifecycle (lib : JsonLib) (notifiers : List Notifier) (files : String → Option String) (run : List Op) :
    Always (Session.step lib) (fun s =>
      (∀ key, Preceded (Resolves key) (Fires key) (Ends key) s.log) ∧
        s.store.manager.alertsFiredTotal = ((notificationsOf s.log).countP fun n => n.status = "firing") ∧
        s.store.manager.history.map makeNotification = newest kMaxHistory (notificationsOf s.log) ∧
        ∀ maxEvents, s.store.manager.alertHistoryJson maxEvents = "[" ++ ",".intercalate
          ((s.store.manager.history.reverse.take maxEvents).map AlertRecord.toJson) ++ "]")
      (.new notifiers files) run := by
  have hhistory : newest kMaxHistory (notificationsOf []) = [] := newest_of_length_le (Nat.zero_le _)
  have hnew : Explained (.new notifiers files) :=
    ⟨fun key hf => (by cases hf), fun key => preceded_nil, rfl, hhistory.symm⟩
  have hstep : ∀ s op s', Explained s → Session.step lib s op = some s' → Explained s' := fun s op s' h hs => h.step hs
  exact always_of_inv hstep (fun s h => ⟨h.resolved, h.total, h.history, alertHistoryJson_eq s.store.manager⟩) hnew

end PudimNetMon.Alerting
