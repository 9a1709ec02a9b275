import PudimNetMon.Collector.BusyAgents

/-!
# Runs of schedules that were switched off (`command_scheduler.cpp`)

A run waits as a copy of its row, from its claim on, behind the queue and the first steps of `ExecuteRun`. A disable or
a delete only changes the table, and a worker checks the window of its copy again, not the row.

- `issued_enabled`: every `RunCommand` finds its schedule in the table and enabled as long as no disable and no delete
  finds a pending run of its schedule.
-/

namespace PudimNetMon.Collector.Threads

open Storage

variable {s s' : State} {id : String}

/-- The claimed row that is about to be queued. -/
def LoopAt.pending : LoopAt → Option CommandSchedule
  | .claimed _ sched _ => some sched
  | _ => none

/-- The run whose `RunCommand` is still to come. -/
def WorkerAt.unsent : WorkerAt → Option Run
  | .recording run | .checking run | .dialing run _ => some run
  | _ => none

/-- A run of the schedule was claimed and its `RunCommand` is still to come. -/
def Pending (s : State) (id : String) : Prop :=
  (∃ sched ∈ s.loop.pending, sched.id = id) ∨ (∃ sched ∈ s.queue, sched.id = id) ∨
    ∃ i, ∃ run ∈ (s.workers i).unsent, run.sched.id = id

instance (s : State) (id : String) : Decidable (Pending s id) := inferInstanceAs (Decidable (_ ∨ _ ∨ _))

/-- The schedule is in the table and enabled. -/
def EnabledIn (t : CommandSchedules) (id : String) : Prop := ∃ r ∈ t.rows, r.id = id ∧ r.enabled = true

instance (t : CommandSchedules) (id : String) : Decidable (EnabledIn t id) :=
  inferInstanceAs (Decidable (∃ r ∈ t.rows, _))

/-! ## The table -/

theorem EnabledIn.modify {t : CommandSchedules} (h : EnabledIn t id) {f : CommandSchedule → CommandSchedule}
    (hf : ∀ r, (f r).id = r.id) (hkeep : ∀ r ∈ t.rows, r.id = id → r.enabled = true → (f r).enabled = true) :
    EnabledIn (t.modify f hf) id := by
  obtain ⟨r, hr, hid, henabled⟩ := h
  exact ⟨f r, List.mem_map_of_mem hr, (hf r).trans hid, hkeep r hr hid henabled⟩

theorem EnabledIn.reschedule {t : CommandSchedules} (h : EnabledIn t id) (now : Int64) :
    EnabledIn (rescheduleStaleSchedules now t) id := by
  unfold rescheduleStaleSchedules
  split
  · refine h.modify (rebaseRow_id now) fun r _ _ henabled => ?_
    unfold rebaseRow
    split
    · cases rebaseTarget now r <;> exact henabled
    · exact henabled
  · exact h

theorem EnabledIn.advance (h : EnabledIn s.table id) (now : Int64) (sched : CommandSchedule) :
    EnabledIn (advanceSchedule s now sched).2 id := by
  refine h.modify (advanceRow_id _ _ _) fun r _ _ henabled => ?_
  unfold advanceRow
  split <;> exact henabled

theorem EnabledIn.insert {t : CommandSchedules} (h : EnabledIn t id) (schedule : CommandSchedule) :
    EnabledIn (t.insert schedule) id := by
  obtain ⟨r, hr, hrest⟩ := h
  by_cases htaken : schedule.id ∈ t.keys
  · rw [KeyedTable.insert_taken htaken]
    exact ⟨r, hr, hrest⟩
  · exact ⟨r, by rw [KeyedTable.insert_free htaken]; exact List.mem_append_left _ hr, hrest⟩

/-- A claim that went through found its schedule enabled. -/
theorem enabledIn_claim {now : Int64} {sched : CommandSchedule} (h : (advanceSchedule s now sched).1 = true) :
    EnabledIn (advanceSchedule s now sched).2 sched.id := by
  have hfound : EnabledIn s.table sched.id := by
    simp only [advanceSchedule, advanceCommandScheduleNextRun, decide_eq_true_eq] at h
    obtain ⟨r, hr⟩ := List.length_eq_one_iff.1 h
    obtain ⟨hmem, hexpected⟩ := List.mem_filter.1 (hr ▸ List.mem_singleton_self r)
    simp only [isExpected, Bool.and_eq_true, decide_eq_true_eq] at hexpected
    exact ⟨r, hmem, hexpected.1.1, hexpected.2⟩
  exact hfound.advance now sched

/-! ## Steps -/

/-- The schedule that a disable or a delete is about. -/
def Event.switchedOff : Event → Option String
  | .setEnabled id false | .delete id => some id
  | _ => none

/-- A disable and a delete that find their schedule find no pending run of it. -/
def SparesPending (s : State) (e : Event) : Prop := ∀ id ∈ e.switchedOff, id ∈ s.table.keys → ¬Pending s id

/-- A `RunCommand` finds its schedule in the table and enabled. -/
def IssuesEnabled (s : State) (e : Event) : Prop :=
  ∀ i, e = .issue i → ∀ run ∈ (s.workers i).unsent, EnabledIn s.table run.sched.id

instance (s : State) (e : Event) : Decidable (SparesPending s e) := inferInstanceAs (Decidable (∀ id ∈ _, _))

instance (s : State) (e : Event) : Decidable (IssuesEnabled s e) :=
  inferInstanceAs (Decidable (∀ _ : Fin kWorkerCount, _))

/-- The schedules of pending runs are enabled. -/
def PendingEnabled (s : State) : Prop := ∀ id, Pending s id → EnabledIn s.table id

theorem pending_setWorker {i : Fin kWorkerCount} {x : WorkerAt} (h : Pending (s.setWorker i x) id) :
    Pending s id ∨ ∃ run, x.unsent = some run ∧ run.sched.id = id := by
  rcases h with hloop | hqueue | ⟨j, run, hrun, hid⟩
  · exact .inl (.inl hloop)
  · exact .inl (.inr (.inl hqueue))
  · by_cases hj : j = i
    · rw [hj, setWorker_self] at hrun
      exact .inr ⟨run, hrun, hid⟩
    · rw [setWorker_of_ne s x hj] at hrun
      exact .inl (.inr (.inr ⟨j, run, hrun, hid⟩))

/-- A worker that moves on has no other run than before. -/
theorem pending_advanceWorker {i : Fin kWorkerCount} {x : WorkerAt}
    (hx : x.unsent = none ∨ x.unsent = (s.workers i).unsent) (h : Pending (s.setWorker i x) id) : Pending s id := by
  rcases pending_setWorker h with h | ⟨run, hrun, hid⟩
  · exact h
  · rcases hx with hx | hx
    · rw [hx] at hrun
      cases hrun
    · exact .inr (.inr ⟨i, run, hx.symm.trans hrun, hid⟩)

/-- A loop that moves on without a claimed row. -/
theorem pending_loop {x : LoopAt} (hx : x.pending = none) (h : Pending { s with loop := x } id) : Pending s id := by
  rcases h with ⟨sched, hsched, -⟩ | hrest
  · rw [hx] at hsched
    cases hsched
  · exact .inr hrest

/-- A popped run was pending, and the others still are. -/
theorem pending_pop {sched : CommandSchedule} {rest : List CommandSchedule} (hq : s.queue = sched :: rest)
    (h : Pending { s with queue := rest } id) : Pending s id := by
  rcases h with hloop | ⟨sched', hmem, hid⟩ | hworkers
  · exact .inl hloop
  · exact .inr (.inl ⟨sched', by rw [hq]; exact List.mem_cons_of_mem _ hmem, hid⟩)
  · exact .inr (.inr hworkers)

/-- A run is pending from its claim on. -/
theorem pending_step {e : Event} (hs : step s e = some s') (h : Pending s' id) :
    Pending s id ∨ EnabledIn s'.table id := by
  cases step_goes hs with
  | started => exact .inl h
  | start =>
    rcases h with ⟨sched, hsched, -⟩ | hqueue | ⟨i, run, hrun, -⟩
    · cases hsched
    · exact .inl (.inr (.inl hqueue))
    · cases hrun
  | stop => exact .inl h
  | stopped => exact .inl h
  | join =>
    rcases h with ⟨sched, hsched, -⟩ | hqueue | ⟨i, run, hrun, -⟩
    · cases hsched
    · exact .inl (.inr (.inl hqueue))
    · cases hrun
  | wakeStop => exact .inl (pending_loop rfl h)
  | wake => exact .inl (pending_loop rfl h)
  | rebase => exact .inl (pending_loop rfl h)
  | list => exact .inl (pending_loop rfl h)
  | claimRefused => exact .inl (pending_loop rfl h)
  | claimLost => exact .inl (pending_loop rfl h)
  | claimMissed => exact .inl (pending_loop rfl h)
  | claim now sched rest _ hupdated =>
    rcases h with ⟨sched', hsched, rfl⟩ | hrest
    · cases hsched
      exact .inr (enabledIn_claim hupdated)
    · exact .inl (.inr hrest)
  | enqueueStop => exact .inl (pending_loop rfl h)
  | enqueueBusy => exact .inl (pending_loop rfl h)
  | enqueue now sched rest hl =>
    rcases h with ⟨sched', hsched, -⟩ | ⟨sched', hmem, hid⟩ | hworkers
    · cases hsched
    · rcases List.mem_append.1 hmem with hmem | hmem
      · exact .inl (.inr (.inl ⟨sched', hmem, hid⟩))
      · rw [List.mem_singleton.1 hmem] at hid
        exact .inl (.inl ⟨sched, by rw [hl]; rfl, hid⟩)
    · exact .inl (.inr (.inr hworkers))
  | endTick => exact .inl (pending_loop rfl h)
  | takeStop i => exact .inl (pending_advanceWorker (.inl rfl) h)
  | takeDrop i sched rest _ hq =>
    exact .inl (pending_pop hq (pending_advanceWorker (s := { s with queue := rest }) (.inl rfl) h))
  | take i sched rest _ hq =>
    rcases pending_setWorker h with hrest | ⟨run, hrun, hid⟩
    · exact .inl (pending_pop hq hrest)
    · cases hrun
      exact .inl (.inr (.inl ⟨sched, by rw [hq]; exact List.mem_cons_self, hid⟩))
  | record i ns ok run hi =>
    refine .inl (pending_advanceWorker (s := { s with clock := ns }) ?_ h)
    rw [hi]
    cases ok with
    | true => exact .inr rfl
    | false => exact .inl rfl
  | checkLate i ns run hi => exact .inl (pending_advanceWorker (s := { s with clock := ns }) (.inl rfl) h)
  | check i ns run hi =>
    exact .inl (pending_advanceWorker (s := { s with clock := ns }) (.inr (by rw [hi]; rfl)) h)
  | skip i => exact .inl (pending_advanceWorker (.inl rfl) h)
  | issue i run checkedMs =>
    exact .inl (pending_advanceWorker (s := { s with issued := s.issued ++ [⟨run, checkedMs⟩] }) (.inl rfl) h)
  | reply i => exact .inl (pending_advanceWorker (.inl rfl) h)
  | finish i run =>
    exact .inl (pending_advanceWorker (s := { s with busyAgents := s.busyAgents.erase run.sched.agentId }) (.inl rfl) h)
  | create => exact .inl h
  | setEnabled => exact .inl h
  | delete => exact .inl h

/-- A schedule with a pending run stays enabled. -/
theorem enabledIn_step {e : Event} (hs : step s e = some s') (hg : SparesPending s e) (hp : Pending s id)
    (h : EnabledIn s.table id) : EnabledIn s'.table id := by
  have hkey : id ∈ s.table.keys := by
    obtain ⟨r, hr, rfl, -⟩ := h
    exact List.mem_map_of_mem hr
  cases step_goes hs with
  | rebase ns ok =>
    cases ok with
    | true => exact h.reschedule _
    | false => exact h
  | claimLost now sched => exact h.advance now sched
  | claimMissed now sched => exact h.advance now sched
  | claim now sched => exact h.advance now sched
  | create schedule => exact h.insert schedule
  | setEnabled id' enabled =>
    refine h.modify (enableRow_id id' enabled) fun r _ hid henabled => ?_
    unfold enableRow
    split
    · rename_i hid'
      cases enabled with
      | true => rfl
      | false =>
        rw [← hid, hid'] at hp hkey
        exact absurd hp (hg id' rfl hkey)
    · exact henabled
  | delete id' =>
    obtain ⟨r, hr, hid, henabled⟩ := h
    refine ⟨r, List.mem_filter.2 ⟨hr, ?_⟩, hid, henabled⟩
    rw [decide_eq_true_eq]
    rintro rfl
    rw [← hid] at hp hkey
    exact hg r.id rfl hkey hp
  | _ => exact h

theorem PendingEnabled.step {e : Event} (h : PendingEnabled s) (hg : SparesPending s e) (hs : step s e = some s') :
    PendingEnabled s' := by
  intro id hp
  rcases pending_step hs hp with hp | henabled
  · exact enabledIn_step hs hg hp (h id hp)
  · exact henabled

/-! ## Runs -/

/-- **Switched off.** Over every interleaving, from any table, in which no disable and no delete finds a pending run of
its schedule, each `RunCommand` finds its schedule in the table and enabled. -/
theorem issued_enabled (table : CommandSchedules) (clock : Int64) (events : List Event)
    (h : Guarded step SparesPending (.new table clock) events) :
    Guarded step IssuesEnabled (.new table clock) events := by
  have hnew : PendingEnabled (.new table clock) := by
    rintro id (⟨sched, hsched, -⟩ | ⟨sched, hsched, -⟩ | ⟨i, run, hrun, -⟩)
    · cases hsched
    · cases hsched
    · cases hrun
  refine guarded_of_guarded (fun s e s' hp hg hs => hp.step hg hs) (fun s e _ hp _ _ => ?_) hnew h
  intro i _ run hrun
  exact hp _ (.inr (.inr ⟨i, run, hrun, rfl⟩))

/-- A scheduler that claims the slot of one minute and sends its command. -/
def oneRun : List Event :=
  [.start, .wake, .rebase 60000000000 true, .list true, .claim .done, .enqueue, .endTick, .take 0,
    .record 0 60001000000 true, .check 0 60002000000, .issue 0]

/-- The schedule is disabled behind the command's reply. -/
theorem issued_enabled_one_run :
    let run := oneRun ++ [.reply 0, .finish 0, .setEnabled "s1" false]
    ((runEvents step (.new oneSchedule 0) run).map fun s => (s.issued.length, s.busyAgents)) = some (1, ∅) ∧
      Guarded step SparesPending (.new oneSchedule 0) run ∧ Guarded step IssuesEnabled (.new oneSchedule 0) run := by
  intro run
  have hspares : Guarded step SparesPending (.new oneSchedule 0) run := by decide +kernel
  exact ⟨by decide, hspares, issued_enabled oneSchedule 0 run hspares⟩

/-- The schedule is disabled while its run is queued, and its command is still sent. -/
theorem disabled_run_is_sent :
    let queued : List Event :=
      [.start, .wake, .rebase 60000000000 true, .list true, .claim .done, .enqueue, .endTick]
    let run : List Event := queued ++ [.setEnabled "s1" false, .take 0, .record 0 60001000000 true,
      .check 0 60002000000, .issue 0]
    ((runEvents step (.new oneSchedule 0) run).map fun s =>
        (s.table.rows.map fun r => (r.id, r.enabled), s.issued.map fun x => x.run.sched.id)) =
        some ([("s1", false)], ["s1"]) ∧
      ¬Guarded step IssuesEnabled (.new oneSchedule 0) run := by
  decide +kernel

end PudimNetMon.Collector.Threads
