import PudimNetMon.Alerting.Lifecycle
import PudimNetMon.Alerting.Stranded

/-!
# Active alerts and their acknowledgement (`alert_manager.cpp`)

`ActiveAlertsJson` takes the fields of an alert out of a joined key, `Ack` joins three fields again. In the states of
the calls each firing key is the key of its own entry, whatever its fields hold.

- `mem_activeAlerts_iff`, `activeAlerts_keys`: the entries are the firing states, one entry each;
- `ackExact_of_joined`: `Ack` of an entry sets the entry's flag and nothing else;
- `activeAlerts_acknowledged`: both in every run of calls, and no flag outlives its alert.
-/

namespace PudimNetMon.Alerting

def AlertManager.activeAlertCount (mgr : AlertManager) : Nat := mgr.states.entries.countP fun e => e.2.firing

/-- The key that `Ack` makes of an entry. -/
def ActiveAlert.key (e : ActiveAlert) : String := stateKey e.ruleId e.agentId e.target

/-! ## The entries -/

section

variable {mgr : AlertManager}

theorem mem_activeAlerts_iff {e : ActiveAlert} : e ∈ mgr.activeAlerts ↔
    ∃ key, (stateAt mgr.states key).firing = true ∧ e = mgr.activeAlert key (stateAt mgr.states key) := by
  unfold AlertManager.activeAlerts
  rw [List.mem_map]
  constructor
  · rintro ⟨⟨key, st⟩, hmem, rfl⟩
    obtain ⟨hmem, hf⟩ := List.mem_filter.1 hmem
    have hstate : stateAt mgr.states key = st := by rw [stateAt, mem_entries_iff.1 hmem, Option.getD_some]
    exact ⟨key, by rwa [hstate], by rw [hstate]⟩
  · rintro ⟨key, hf, rfl⟩
    obtain ⟨st, hst, hfiring⟩ := firing_iff.1 hf
    have hstate : stateAt mgr.states key = st := by rw [stateAt, hst, Option.getD_some]
    rw [hstate]
    exact ⟨⟨key, st⟩, List.mem_filter.2 ⟨mem_entries_iff.2 hst, hfiring⟩, rfl⟩

theorem activeAlerts_length (mgr : AlertManager) : mgr.activeAlerts.length = mgr.activeAlertCount := by
  rw [AlertManager.activeAlerts, List.length_map, AlertManager.activeAlertCount, List.countP_eq_length_filter]

/-- The firing keys are joined from triples. -/
def FiringJoined (mgr : AlertManager) : Prop :=
  ∀ key, (stateAt mgr.states key).firing = true → ∃ ruleId agentId target, key = stateKey ruleId agentId target

/-- An entry has the key that it is taken out of. -/
theorem activeAlert_key (hj : FiringJoined mgr) {key : String} (hf : (stateAt mgr.states key).firing = true)
    (st : FiringState) : (mgr.activeAlert key st).key = key := by
  obtain ⟨ruleId, agentId, target, hkey⟩ := hj key hf
  exact (stateKey_keyFields hkey).1

theorem mem_keys_iff (hj : FiringJoined mgr) {key : String} :
    key ∈ mgr.activeAlerts.map ActiveAlert.key ↔ (stateAt mgr.states key).firing = true := by
  rw [List.mem_map]
  constructor
  · rintro ⟨e, he, rfl⟩
    obtain ⟨key, hf, rfl⟩ := mem_activeAlerts_iff.1 he
    rwa [activeAlert_key hj hf]
  · intro hf
    exact ⟨_, mem_activeAlerts_iff.2 ⟨key, hf, rfl⟩, activeAlert_key hj hf _⟩

/-- No two entries have one key. -/
theorem activeAlerts_keys (hj : FiringJoined mgr) : (mgr.activeAlerts.map ActiveAlert.key).Nodup := by
  have hkeys : mgr.activeAlerts.map ActiveAlert.key =
      (mgr.states.entries.filter fun e => e.2.firing).map Sigma.fst := by
    unfold AlertManager.activeAlerts
    rw [List.map_map]
    apply List.map_congr_left
    rintro ⟨key, st⟩ hmem
    obtain ⟨hmem, hf⟩ := List.mem_filter.1 hmem
    exact activeAlert_key hj (firing_iff.2 ⟨st, mem_entries_iff.1 hmem, hf⟩) st
  rw [hkeys]
  exact List.Nodup.sublist (List.filter_sublist.map _) mgr.states.nodupKeys

end

/-! ## Acknowledging an entry -/

/-- The states behind an acknowledgement. -/
theorem stateAt_ack (mgr : AlertManager) (ruleId agentId target key : String) :
    stateAt (mgr.ack ruleId agentId target).2.states key =
      if key = stateKey ruleId agentId target ∧ (stateAt mgr.states key).firing = true then
        { stateAt mgr.states key with acknowledged := true }
      else stateAt mgr.states key := by
  unfold AlertManager.ack
  dsimp only
  split
  · rename_i hnone
    rw [if_neg]
    rintro ⟨rfl, hf⟩
    obtain ⟨st, hst, -⟩ := firing_iff.1 hf
    cases hnone.symm.trans hst
  rename_i st hst
  have hstate : stateAt mgr.states (stateKey ruleId agentId target) = st := by rw [stateAt, hst, Option.getD_some]
  split
  · rename_i hidle
    split
    · rename_i hkey
      obtain ⟨rfl, hf⟩ := hkey
      -- acknowledged before
      rw [hstate] at hf ⊢
      rw [hf, Bool.not_true, Bool.false_or] at hidle
      obtain ⟨firing, acknowledged, firstFiredMs, lastNotifiedMs, lastValue, lastDetail⟩ := st
      cases hidle
      rfl
    · rfl
  · rename_i hidle
    rw [Bool.or_eq_true, not_or, Bool.not_eq_true', Bool.not_eq_false] at hidle
    by_cases hkey : key = stateKey ruleId agentId target
    · subst hkey
      rw [stateAt_insert, hstate, if_pos ⟨rfl, hidle.1⟩]
    · rw [stateAt_insert_ne _ hkey, if_neg fun h => hkey h.1]

/-- `Ack` answers true for a firing state without the flag. -/
theorem ack_iff (mgr : AlertManager) (ruleId agentId target : String) :
    (mgr.ack ruleId agentId target).1 = true ↔
      (stateAt mgr.states (stateKey ruleId agentId target)).firing = true ∧
        (stateAt mgr.states (stateKey ruleId agentId target)).acknowledged = false := by
  unfold AlertManager.ack stateAt
  dsimp only
  cases mgr.states.lookup (stateKey ruleId agentId target) with
  | none => simp
  | some st => cases hf : st.firing <;> cases ha : st.acknowledged <;> simp [hf, ha]

theorem ack_refused {mgr : AlertManager} {ruleId agentId target : String}
    (h : (mgr.ack ruleId agentId target).1 = false) : (mgr.ack ruleId agentId target).2 = mgr := by
  unfold AlertManager.ack at h ⊢
  dsimp only at h ⊢
  split at h
  · rfl
  split at h
  · rename_i hidle
    rw [if_pos hidle]
  · cases h

/-- The entry with its flag set, when it is the one of the key. -/
def ActiveAlert.acknowledge (key : String) (e : ActiveAlert) : ActiveAlert :=
  if e.key = key then { e with acknowledged := true } else e

/-- `Ack` of a listed entry answers whether it is shown unacknowledged, and sets its flag only. -/
structure AckExact (mgr : AlertManager) (e : ActiveAlert) : Prop where
  answer : (mgr.ack e.ruleId e.agentId e.target).1 = true ↔ e.acknowledged = false
  refused : e.acknowledged = true → (mgr.ack e.ruleId e.agentId e.target).2 = mgr
  states : ∀ key, stateAt (mgr.ack e.ruleId e.agentId e.target).2.states key =
    if key = e.key then { stateAt mgr.states key with acknowledged := true } else stateAt mgr.states key
  rest : (mgr.ack e.ruleId e.agentId e.target).2 =
    { mgr with states := (mgr.ack e.ruleId e.agentId e.target).2.states }
  listed : (mgr.ack e.ruleId e.agentId e.target).2.activeAlerts.Perm (mgr.activeAlerts.map (·.acknowledge e.key))

theorem key_acknowledge (key : String) (e : ActiveAlert) : (e.acknowledge key).key = e.key := by
  unfold ActiveAlert.acknowledge
  split <;> rfl

section

variable {mgr : AlertManager} {e : ActiveAlert}

theorem stateAt_ack_entry (hj : FiringJoined mgr) (he : e ∈ mgr.activeAlerts) (key : String) :
    stateAt (mgr.ack e.ruleId e.agentId e.target).2.states key =
      if key = e.key then { stateAt mgr.states key with acknowledged := true } else stateAt mgr.states key := by
  have hf := (mem_keys_iff hj).1 (List.mem_map_of_mem he)
  rw [stateAt_ack]
  by_cases hkey : key = e.key
  · rw [if_pos hkey, if_pos ⟨hkey, by rwa [hkey]⟩]
  · rw [if_neg hkey, if_neg fun h => hkey h.1]

/-- The entries behind an acknowledgement. -/
theorem activeAlerts_ack (hj : FiringJoined mgr) (he : e ∈ mgr.activeAlerts) :
    (mgr.ack e.ruleId e.agentId e.target).2.activeAlerts.Perm (mgr.activeAlerts.map (·.acknowledge e.key)) := by
  have hack := ack_states mgr e.ruleId e.agentId e.target
  have hstates := stateAt_ack_entry hj he
  generalize (mgr.ack e.ruleId e.agentId e.target).2 = after at hack hstates ⊢
  have hj' : FiringJoined after := fun key hf => hj key (by rwa [hack.2] at hf)
  have hentry : ∀ key st, after.activeAlert key st = mgr.activeAlert key st := fun key st => by rw [hack.1]; rfl
  have hkeys := activeAlerts_keys hj
  refine (List.perm_ext_iff_of_nodup (activeAlerts_keys hj').of_map ?_).2 fun a => ?_
  · refine List.Nodup.of_map ActiveAlert.key ?_
    rw [List.map_map]
    simpa [Function.comp_def, key_acknowledge] using hkeys
  -- the entry of a firing key, before and after
  have hshown : ∀ key, (stateAt mgr.states key).firing = true →
      after.activeAlert key (stateAt after.states key) =
        (mgr.activeAlert key (stateAt mgr.states key)).acknowledge e.key := by
    intro key hf
    rw [hentry, hstates, ActiveAlert.acknowledge, activeAlert_key hj hf]
    split <;> rfl
  rw [mem_activeAlerts_iff, List.mem_map]
  constructor
  · rintro ⟨key, hf, rfl⟩
    rw [hack.2] at hf
    exact ⟨_, mem_activeAlerts_iff.2 ⟨key, hf, rfl⟩, (hshown key hf).symm⟩
  · rintro ⟨x, hx, rfl⟩
    obtain ⟨key, hf, rfl⟩ := mem_activeAlerts_iff.1 hx
    exact ⟨key, by rwa [hack.2], (hshown key hf).symm⟩

theorem ackExact_of_joined (hj : FiringJoined mgr) (he : e ∈ mgr.activeAlerts) : AckExact mgr e := by
  obtain ⟨key, hf, hentry⟩ := mem_activeAlerts_iff.1 he
  have hkey : e.key = key := by rw [hentry, activeAlert_key hj hf]
  have hflag : e.acknowledged = (stateAt mgr.states e.key).acknowledged := by
    rw [hkey, hentry]
    rfl
  rw [← hkey] at hf
  refine ⟨?_, fun hset => ?_, stateAt_ack_entry hj he, (ack_states mgr _ _ _).1, activeAlerts_ack hj he⟩
  · rw [ack_iff, hflag]
    exact and_iff_right hf
  · apply ack_refused
    apply Bool.eq_false_of_not_eq_true
    rw [ack_iff]
    rintro ⟨-, hunset⟩
    cases hset.symm.trans (hflag.trans hunset)

end

/-! ## The flag -/

/-- Only firing states have the flag. -/
def FlagsFiring (states : States) : Prop :=
  ∀ key, (stateAt states key).acknowledged = true → (stateAt states key).firing = true

section

variable {agentId : String} {now : Int} {s : EvalState}

theorem FlagsFiring.insert {states : States} (h : FlagsFiring states) {key : String} {st : FiringState}
    (hst : st.acknowledged = true → st.firing = true) : FlagsFiring (states.insert key st) := by
  intro key' hack
  by_cases hkey : key' = key
  · subst hkey
    rw [stateAt_insert] at hack ⊢
    exact hst hack
  · rw [stateAt_insert_ne _ hkey] at hack ⊢
    exact h key' hack

theorem FlagsFiring.evalItems (h : FlagsFiring s.states) (xs : List WorkItem) :
    FlagsFiring (evalItems agentId now s xs).states := by
  induction xs generalizing s with
  | nil => exact h
  | cons x xs ih =>
    rw [evalItems_cons]
    apply ih
    have hstep := evalRule_step agentId now x.1 x.2 s
    generalize evalRule agentId now x.1 s x.2 = s' at hstep
    cases hstep with
    | skip => exact h
    | fire => exact h.insert fun _ => rfl
    | renew _ _ hf => exact h.insert fun _ => hf
    | resolve => exact h.insert nofun
    | keep => exact h.insert (h _)

/-- A flag behind a visit was there before it, and the visit resolves nothing of its key. -/
theorem evalRule_flag (agentId : String) (now : Int) (s : EvalState) (x : WorkItem) :
    ∃ out, (evalRule agentId now x.1 s x.2).notifications = s.notifications ++ out ∧
      ∀ key, (stateAt (evalRule agentId now x.1 s x.2).states key).acknowledged = true →
        (stateAt s.states key).acknowledged = true ∧ ∀ n ∈ out, ¬Resolves key (.emitted n) := by
  -- the state of the visited key, and those of the others
  have hinsert : ∀ {key : String} {st : FiringState} {key' : String},
      (stateAt (s.states.insert key st) key').acknowledged = true →
      (st.acknowledged = true → (stateAt s.states key).acknowledged = true) →
      (stateAt s.states key').acknowledged = true := by
    intro key st key' hack hst
    by_cases hkey : key' = key
    · subst hkey
      rw [stateAt_insert] at hack
      exact hst hack
    · rwa [stateAt_insert_ne _ hkey] at hack
  have hfiring : ∀ {record : AlertRecord}, record.status = "firing" → ∀ key,
      ∀ n ∈ [makeNotification record], ¬Resolves key (.emitted n) := by
    rintro record hstatus key n hn ⟨n', hn', hresolved, -⟩
    cases hn'
    rw [List.mem_singleton.1 hn] at hresolved
    exact absurd (hstatus.symm.trans hresolved) (by decide)
  have hstep := evalRule_step agentId now x.1 x.2 s
  generalize evalRule agentId now x.1 s x.2 = s' at hstep ⊢
  cases hstep with
  | skip => exact ⟨[], by simp, fun key hack => ⟨hack, nofun⟩⟩
  | fire => exact ⟨[_], rfl, fun key hack => ⟨hinsert hack fun h => h, hfiring rfl key⟩⟩
  | renew => exact ⟨[_], rfl, fun key hack => ⟨hinsert hack fun h => h, hfiring rfl key⟩⟩
  | resolve =>
    refine ⟨[_], rfl, fun key hack => ⟨hinsert hack nofun, ?_⟩⟩
    rintro n hn ⟨n', hn', -, hkey⟩
    cases hn'
    rw [List.mem_singleton.1 hn] at hkey
    rw [← hkey] at hack
    exact nomatch (congrArg FiringState.acknowledged (stateAt_insert s.states _ {})).symm.trans hack
  | keep => exact ⟨[], by simp, fun key hack => ⟨hinsert hack fun h => h, nofun⟩⟩

theorem evalItems_flag (agentId : String) (now : Int) (s : EvalState) (xs : List WorkItem) :
    ∃ out, (evalItems agentId now s xs).notifications = s.notifications ++ out ∧
      ∀ key, (stateAt (evalItems agentId now s xs).states key).acknowledged = true →
        (stateAt s.states key).acknowledged = true ∧ ∀ n ∈ out, ¬Resolves key (.emitted n) := by
  induction xs generalizing s with
  | nil => exact ⟨[], by simp, fun key hack => ⟨hack, nofun⟩⟩
  | cons x xs ih =>
    obtain ⟨first, hfirst, hx⟩ := evalRule_flag agentId now s x
    obtain ⟨rest, hrest, hxs⟩ := ih (s := evalRule agentId now x.1 s x.2)
    refine ⟨first ++ rest, by rw [evalItems_cons, hrest, hfirst, List.append_assoc], fun key hack => ?_⟩
    obtain ⟨hmid, hnot⟩ := hxs key hack
    obtain ⟨hstart, hnot'⟩ := hx key hmid
    exact ⟨hstart, fun n hn => (List.mem_append.1 hn).elim (hnot' n) (hnot n)⟩

end

/-! ## Runs -/

section

variable (lib : JsonLib)

/-- A flag behind a call was set by the call, an `Ack` of its key, or was there before, and the call gives out no end
of the alert. -/
def FlagsExplained (s : Session) (op : Op) : Prop :=
  ∀ s' entries, s.step lib op = some s' → s'.log = s.log ++ entries →
    ∀ key, (stateAt s'.store.manager.states key).acknowledged = true →
      ((stateAt s.store.manager.states key).acknowledged = true ∧ ∀ e ∈ entries, ¬Ends key e) ∨
        ∃ ruleId agentId target, op = .ack ruleId agentId target ∧ key = stateKey ruleId agentId target

variable {lib} {s s' : Session}

theorem FlagsFiring.step {op : Op} (h : FlagsFiring s.store.manager.states) (hs : s.step lib op = some s') :
    FlagsFiring s'.store.manager.states := by
  obtain ⟨entries, hop, -⟩ := session_step hs
  generalize s'.store.manager = manager at hop ⊢
  have hcleared : FlagsFiring (∅ : States) := fun key hack => by cases hack
  cases hop with
  | load => exact hcleared
  | refused => exact h
  | store c reply manager hc =>
    cases hc with
    | load => exact hcleared
    | loadFails => exact h
    | upsert => exact h
    | upsertFails => exact h
    | delete ruleId a =>
      intro key hack
      rw [stateAt_forgetRule] at hack ⊢
      split at hack
      · cases hack
      · rename_i hof
        rw [if_neg hof]
        exact h key hack
    | deleteFails => exact h
  | evaluate agentId metrics now =>
    rw [evaluate_manager]
    exact FlagsFiring.evalItems (s := s.store.manager.evalState) h _
  | ack ruleId agentId target =>
    intro key hack
    rw [(ack_states s.store.manager ruleId agentId target).2]
    rw [stateAt_ack] at hack
    split at hack
    · rename_i hkey
      exact hkey.2
    · exact h key hack

theorem flagsExplained (lib : JsonLib) (s : Session) (op : Op) : FlagsExplained lib s op := by
  intro s' entries hs hlog key hack
  obtain ⟨given, hop, hlog'⟩ := session_step hs
  have hgiven : entries = given := List.append_cancel_left (hlog.symm.trans hlog')
  subst hgiven
  clear hlog hlog'
  generalize s'.store.manager = manager at hop hack
  cases hop with
  | load => cases hack
  | refused => exact .inl ⟨hack, nofun⟩
  | store c reply manager hc =>
    left
    cases hc with
    | load => cases hack
    | loadFails _ _ _ hne => exact ⟨hack, by simp [hne]⟩
    | upsert => exact ⟨hack, by simp [Call.entries]⟩
    | upsertFails _ _ _ hne => exact ⟨hack, by simp [hne]⟩
    | delete ruleId a =>
      rw [stateAt_forgetRule] at hack
      split at hack
      · cases hack
      rename_i hof
      refine ⟨hack, fun e he => ?_⟩
      rw [if_pos rfl, Call.entries, List.mem_singleton] at he
      rintro (⟨n, hn, -⟩ | hloaded | ⟨ruleId', hdeleted, hof'⟩)
      · cases hn.symm.trans he
      · cases hloaded.symm.trans he
      · cases hdeleted.symm.trans he
        exact hof hof'
    | deleteFails _ _ _ hne => exact ⟨hack, by simp [hne]⟩
  | evaluate agentId metrics now =>
    left
    rw [evaluate_manager] at hack
    obtain ⟨out, hout, hflag⟩ := evalItems_flag agentId now s.store.manager.evalState
      (workItems s.store.manager.rules metrics)
    have hemitted : s.store.manager.emitted agentId metrics now = out := hout
    obtain ⟨hbefore, hnot⟩ := hflag key hack
    refine ⟨hbefore, fun e he => ?_⟩
    rw [hemitted] at he
    obtain ⟨n, hn, rfl⟩ := List.mem_map.1 he
    rintro (hresolves | hloaded | ⟨ruleId', hdeleted, -⟩)
    · exact hnot n hn hresolves
    · cases hloaded
    · cases hdeleted
  | ack ruleId agentId target =>
    rw [stateAt_ack] at hack
    split at hack
    · rename_i hkey
      exact .inr ⟨_, _, _, rfl, hkey.1⟩
    · exact .inl ⟨hack, nofun⟩

/-- **Active alerts and their acknowledgement.** In every state of every run of calls the entries are the firing
states, one entry each and as many as counted, and `Ack` of an entry is exact. No state that does not fire has the flag,
and a call that gives out the end of an alert leaves its flag unset; only `Ack` of its key sets it. -/
theorem activeAlerts_acknowledged (lib : JsonLib) (notifiers : List Notifier) (files : String → Option String)
    (run : List Op) :
    Always (Session.step lib) (fun s =>
        (s.store.manager.activeAlerts.map ActiveAlert.key).Nodup ∧
          (∀ key, key ∈ s.store.manager.activeAlerts.map ActiveAlert.key ↔
            (stateAt s.store.manager.states key).firing = true) ∧
          s.store.manager.activeAlerts.length = s.store.manager.activeAlertCount ∧
          (∀ e ∈ s.store.manager.activeAlerts, AckExact s.store.manager e) ∧ FlagsFiring s.store.manager.states)
        (.new notifiers files) run ∧
      Guarded (Session.step lib) (FlagsExplained lib) (.new notifiers files) run := by
  have hnew : KeysJoined (.new notifiers files) ∧ FlagsFiring (Session.new notifiers files).store.manager.states :=
    ⟨fun key hf => (by cases hf), fun key hack => (by cases hack)⟩
  have hstep : ∀ s op s', KeysJoined s ∧ FlagsFiring s.store.manager.states → Session.step lib s op = some s' →
      KeysJoined s' ∧ FlagsFiring s'.store.manager.states := fun s op s' h hs => ⟨h.1.step hs, h.2.step hs⟩
  constructor
  · refine always_of_inv hstep (fun s h => ?_) hnew
    have hj : FiringJoined s.store.manager := h.1
    exact ⟨activeAlerts_keys hj, fun key => mem_keys_iff hj, activeAlerts_length _,
      fun e he => ackExact_of_joined hj he, h.2⟩
  · exact guarded_of_inv hstep (fun s op _ => flagsExplained lib s op) hnew

end

end PudimNetMon.Alerting
