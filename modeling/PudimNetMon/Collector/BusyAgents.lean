import PudimNetMon.Collector.Threads

/-!
# One run at a time, inside its window (`command_scheduler.cpp`)

- `one_run_in_window`: at most one run of an agent is queued or executing, and each `RunCommand` was issued for a window
  that was open at a time read after its run was taken;
- `busy_exact_iff`: the busy agents are those with a run exactly as long as no worker pops a run after `Stop`.
-/

namespace PudimNetMon.Collector.Threads

open Storage

variable {s s' : State}

/-! ## Windows -/

/-- The window of the run was open when it was taken, and that is not behind the clock. -/
def Run.Timely (clockMs : Int64) (run : Run) : Prop :=
  run.sched.windowStartUnixMs ≤ run.takenMs ∧ run.takenMs ≤ clockMs

/-- The rows of a tick were in their windows. -/
def LoopAt.Timely (clockMs : Int64) : LoopAt → Prop
  | .rebased now => now ≤ clockMs
  | .claiming now due => now ≤ clockMs ∧ ∀ r ∈ due, r.windowStartUnixMs ≤ now
  | .claimed now sched rest => now ≤ clockMs ∧ ∀ r ∈ sched :: rest, r.windowStartUnixMs ≤ now
  | .absent | .waiting | .ticking | .returned => True

/-- The run was checked after it was taken and before its window's end. -/
def InWindow (run : Run) (checkedMs : Int64) : Prop :=
  run.sched.windowStartUnixMs ≤ checkedMs ∧ checkedMs ≤ run.sched.windowEndUnixMs ∧ run.takenMs ≤ checkedMs

def WorkerAt.Timely (clockMs : Int64) (x : WorkerAt) : Prop :=
  (∀ run, x.run = some run → run.Timely clockMs) ∧ ∀ run checkedMs, x = .dialing run checkedMs → InWindow run checkedMs

structure Timely (s : State) : Prop where
  loop : s.loop.Timely (nowMs s.clock)
  queue : ∀ r ∈ s.queue, r.windowStartUnixMs ≤ nowMs s.clock
  workers : ∀ i, (s.workers i).Timely (nowMs s.clock)
  issued : ∀ x ∈ s.issued, InWindow x.run x.checkedMs

theorem LoopAt.Timely.mono {t t' : Int64} (h : t ≤ t') {x : LoopAt} (hx : x.Timely t) : x.Timely t' := by
  cases x with
  | rebased now => exact Int64.le_trans hx h
  | claiming now due => exact ⟨Int64.le_trans hx.1 h, hx.2⟩
  | claimed now sched rest => exact ⟨Int64.le_trans hx.1 h, hx.2⟩
  | _ => trivial

theorem WorkerAt.Timely.mono {t t' : Int64} (h : t ≤ t') {x : WorkerAt} (hx : x.Timely t) : x.Timely t' :=
  ⟨fun run hrun => ⟨(hx.1 run hrun).1, Int64.le_trans (hx.1 run hrun).2 h⟩, hx.2⟩

/-- A worker without a checked window. -/
theorem WorkerAt.Timely.of_run {t : Int64} {x y : WorkerAt} (hx : x.Timely t) (hrun : y.run = x.run)
    (hne : ∀ run checkedMs, y ≠ .dialing run checkedMs) : y.Timely t :=
  ⟨fun run hy => hx.1 run (hrun.symm.trans hy), fun run checkedMs hy => absurd hy (hne run checkedMs)⟩

theorem WorkerAt.timely_of_none {t : Int64} {x : WorkerAt} (hx : x.run = none) : x.Timely t := by
  refine ⟨fun run hrun => ?_, fun run checkedMs he => ?_⟩
  · rw [hx] at hrun
    cases hrun
  · rw [he] at hx
    cases hx

theorem Timely.setLoop (h : Timely s) {x : LoopAt} (hx : x.Timely (nowMs s.clock)) : Timely { s with loop := x } :=
  ⟨hx, h.queue, h.workers, h.issued⟩

theorem Timely.setClock (h : Timely s) {ns : Int64} (hns : s.clock ≤ ns) : Timely { s with clock := ns } := by
  have hmono := nowMs_mono hns
  exact ⟨h.loop.mono hmono, fun r hr => Int64.le_trans (h.queue r hr) hmono, fun i => (h.workers i).mono hmono,
    h.issued⟩

theorem Timely.setWorker (h : Timely s) (i : Fin kWorkerCount) {x : WorkerAt} (hx : x.Timely (nowMs s.clock)) :
    Timely (s.setWorker i x) := by
  refine ⟨h.loop, h.queue, fun j => ?_, h.issued⟩
  by_cases hj : j = i
  · rw [hj, setWorker_self]
    exact hx
  · rw [setWorker_of_ne s x hj]
    exact h.workers j

/-- A worker that moves on with its run. -/
theorem Timely.advanceWorker (h : Timely s) (i : Fin kWorkerCount) {x : WorkerAt} (hrun : x.run = (s.workers i).run)
    (hne : ∀ run checkedMs, x ≠ .dialing run checkedMs) : Timely (s.setWorker i x) :=
  h.setWorker i ((h.workers i).of_run hrun hne)

/-- The due rows are in their windows. -/
theorem windowStart_of_due {now : Int64} {t : CommandSchedules} {r : CommandSchedule}
    (h : r ∈ listDueCommandSchedules now t) : r.windowStartUnixMs ≤ now := by
  have hsorted := List.mem_of_mem_take h
  rw [List.mem_insertionSort] at hsorted
  have hdue := (List.mem_filter.1 hsorted).2
  simp only [Bool.and_eq_true, decide_eq_true_eq] at hdue
  exact hdue.1.1.1.2

/-- The loop goes on to the rest of its rows. -/
theorem LoopAt.timely_rest {t now : Int64} {sched : CommandSchedule} {rest : List CommandSchedule}
    (h : LoopAt.Timely t (.claiming now (sched :: rest))) : LoopAt.Timely t (.claiming now rest) :=
  ⟨h.1, fun r hr => h.2 r (List.mem_cons_of_mem _ hr)⟩

/-- A run is popped. -/
theorem Timely.pop (h : Timely s) {sched : CommandSchedule} {rest : List CommandSchedule}
    (hq : s.queue = sched :: rest) : Timely { s with queue := rest } :=
  ⟨h.loop, fun r hr => h.queue r (by rw [hq]; exact List.mem_cons_of_mem _ hr), h.workers, h.issued⟩

theorem Timely.step {e : Event} (h : Timely s) (hs : step s e = some s') : Timely s' := by
  cases step_goes hs with
  | started => exact h
  | start =>
    exact ⟨trivial, h.queue, fun _ => WorkerAt.timely_of_none rfl, h.issued⟩
  | stop => exact ⟨h.loop, h.queue, h.workers, h.issued⟩
  | stopped => exact h
  | join => exact ⟨trivial, h.queue, fun _ => WorkerAt.timely_of_none rfl, h.issued⟩
  | wakeStop => exact h.setLoop trivial
  | wake => exact h.setLoop trivial
  | rebase ns ok _ hns =>
    have hclock := h.setClock hns
    exact ⟨Int64.le_refl _, hclock.queue, hclock.workers, h.issued⟩
  | list now ok hl =>
    have hnow := h.loop
    rw [hl] at hnow
    refine h.setLoop ⟨hnow, fun r hr => ?_⟩
    split at hr
    · exact windowStart_of_due hr
    · cases hr
  | claimRefused now sched rest hl =>
    have hdue := h.loop
    rw [hl] at hdue
    exact h.setLoop (LoopAt.timely_rest hdue)
  | claimLost now sched rest hl =>
    have hdue := h.loop
    rw [hl] at hdue
    exact ⟨LoopAt.timely_rest hdue, h.queue, h.workers, h.issued⟩
  | claimMissed now sched rest hl =>
    have hdue := h.loop
    rw [hl] at hdue
    exact ⟨LoopAt.timely_rest hdue, h.queue, h.workers, h.issued⟩
  | claim now sched rest hl =>
    have hdue := h.loop
    rw [hl] at hdue
    exact ⟨hdue, h.queue, h.workers, h.issued⟩
  | enqueueStop => exact h.setLoop trivial
  | enqueueBusy now sched rest hl =>
    have hdue := h.loop
    rw [hl] at hdue
    exact h.setLoop (LoopAt.timely_rest hdue)
  | enqueue now sched rest hl =>
    have hdue := h.loop
    rw [hl] at hdue
    refine ⟨LoopAt.timely_rest hdue, fun r hr => ?_, h.workers, h.issued⟩
    rcases List.mem_append.1 hr with hr | hr
    · exact h.queue r hr
    · rw [List.mem_singleton.1 hr]
      exact Int64.le_trans (hdue.2 sched List.mem_cons_self) hdue.1
  | endTick => exact h.setLoop trivial
  | takeStop i => exact h.setWorker i (WorkerAt.timely_of_none rfl)
  | takeDrop i sched rest _ hq =>
    exact (h.pop hq).setWorker i (WorkerAt.timely_of_none rfl)
  | take i sched rest _ hq =>
    refine (h.pop hq).setWorker i ⟨fun run hrun => ?_, fun run checkedMs he => by cases he⟩
    cases hrun
    exact ⟨h.queue sched (by rw [hq]; exact List.mem_cons_self), Int64.le_refl _⟩
  | record i ns ok run hi hns =>
    refine (h.setClock hns).advanceWorker i ?_ fun run checkedMs => ?_
    · rw [hi]
      cases ok <;> rfl
    · cases ok <;> exact nofun
  | checkLate i ns run hi hns =>
    refine (h.setClock hns).advanceWorker i ?_ nofun
    rw [hi]
    rfl
  | check i ns run hi hns hlate =>
    have hrun := (h.workers i).1 run (by rw [hi]; rfl)
    have hclock := h.setClock hns
    refine hclock.setWorker i ⟨fun run' he => ?_, fun run' checkedMs he => ?_⟩
    · cases he
      exact ⟨hrun.1, Int64.le_trans hrun.2 (nowMs_mono hns)⟩
    · cases he
      have htaken : run.takenMs ≤ nowMs ns := Int64.le_trans hrun.2 (nowMs_mono hns)
      exact ⟨Int64.le_trans hrun.1 htaken, Int64.not_lt.1 hlate, htaken⟩
  | skip i run checkedMs hi =>
    refine h.advanceWorker i ?_ nofun
    rw [hi]
    rfl
  | issue i run checkedMs hi =>
    have hissued : Timely { s with issued := s.issued ++ [⟨run, checkedMs⟩] } := by
      refine ⟨h.loop, h.queue, h.workers, fun x hx => ?_⟩
      rcases List.mem_append.1 hx with hx | hx
      · exact h.issued x hx
      · rw [List.mem_singleton.1 hx]
        exact (h.workers i).2 run checkedMs hi
    refine hissued.advanceWorker i ?_ nofun
    rw [hi]
    rfl
  | reply i run hi =>
    refine h.advanceWorker i ?_ nofun
    rw [hi]
    rfl
  | finish i run hi =>
    have herased : Timely { s with busyAgents := s.busyAgents.erase run.sched.agentId } :=
      ⟨h.loop, h.queue, h.workers, h.issued⟩
    exact herased.setWorker i (WorkerAt.timely_of_none rfl)
  | create => exact ⟨h.loop, h.queue, h.workers, h.issued⟩
  | setEnabled => exact ⟨h.loop, h.queue, h.workers, h.issued⟩
  | delete => exact ⟨h.loop, h.queue, h.workers, h.issued⟩

/-! ## Runs -/

/-- A scheduler that was not started yet. -/
def State.new (table : CommandSchedules) (clock : Int64) : State := { table, clock }

theorem oneEach_new (table : CommandSchedules) (clock : Int64) : (State.new table clock).admission.OneEach := by
  intro agent
  simp [State.new, State.admission, Admission.load, WorkerAt.run]

/-- **One run in its window.** Over every interleaving, from any table, at most one run of an agent is queued or
executing in each state, and each issued `RunCommand` had its window open at a time that was read after its run was
taken from the queue. -/
theorem one_run_in_window (table : CommandSchedules) (clock : Int64) (events : List Event) :
    Always step (fun s => (∀ agent, s.admission.load agent ≤ 1) ∧ ∀ x ∈ s.issued, InWindow x.run x.checkedMs)
      (.new table clock) events := by
  have hnew : Timely (.new table clock) := ⟨trivial, nofun, fun _ => WorkerAt.timely_of_none rfl, nofun⟩
  have hstep : ∀ s e s', s.admission.OneEach ∧ Timely s → step s e = some s' → s'.admission.OneEach ∧ Timely s' :=
    fun s e s' h hs => ⟨h.1.step (step_admission hs), h.2.step hs⟩
  exact always_of_inv hstep (fun s h => ⟨h.1.load_le, h.2.issued⟩) ⟨oneEach_new table clock, hnew⟩

/-- The busy agents are those with a queued or an executed run. -/
def BusyExact (s : State) : Prop :=
  ∀ agent, agent ∈ s.busyAgents ↔
    (∃ sched ∈ s.queue, sched.agentId = agent) ∨ ∃ i run, (s.workers i).run = some run ∧ run.sched.agentId = agent

theorem busyExact_iff : BusyExact s ↔ s.admission.Exact := by
  refine forall_congr' fun agent => ?_
  rw [Admission.load_pos_iff]
  simp [State.admission]

/-- **Busy agents.** Over every interleaving, from any table, the busy agents are exactly those with a queued or an
executed run in each state, exactly when no worker pops a run after `Stop`. -/
theorem busy_exact_iff (table : CommandSchedules) (clock : Int64) (events : List Event) :
    Always step BusyExact (.new table clock) events ↔
      Guarded step (fun s e => ∀ i, e = .take i → s.stop = true → s.queue = []) (.new table clock) events := by
  have hinv : ∀ s e s', s.admission.OneEach → step s e = some s' → s'.admission.OneEach :=
    fun s e s' h hs => h.step (step_admission hs)
  have hstep : ∀ s e s', s.admission.OneEach → BusyExact s → step s e = some s' →
      (BusyExact s' ↔ ∀ i, e = .take i → s.stop = true → s.queue = []) := by
    intro s e s' h hexact hs
    rw [busyExact_iff, Admission.exact_step_iff h (busyExact_iff.1 hexact) (step_admission hs)]
    cases e with
    | take i => cases hstop : s.stop <;> simp [dropsRun, hstop]
    | _ => simp [dropsRun]
  have hnew : BusyExact (.new table clock) := by
    intro agent
    simp [State.new, WorkerAt.run]
  exact always_iff_guarded hinv hstep (oneEach_new table clock) hnew

/-- A run is queued, `Stop` is called, and a worker pops the run and returns. The agent stays busy over the restart, so
the next slot is claimed and not queued. -/
theorem popped_run_stays_busy :
    let stopped : List Event := [.start, .wake, .rebase 60000000000 true, .list true, .claim .done, .enqueue, .endTick,
      .stop, .take 0]
    let restarted : List Event := stopped ++ [.take 1, .take 2, .take 3, .wake, .join, .start, .wake,
      .rebase 120000000000 true, .list true, .claim .done, .enqueue]
    ((runEvents step (.new oneSchedule 0) stopped).map fun s =>
        (s.busyAgents, s.queue, (List.finRange kWorkerCount).map fun i => (s.workers i).run)) =
        some ({"agent-a"}, [], [none, none, none, none]) ∧
      ((runEvents step (.new oneSchedule 0) restarted).map fun s => (s.busyAgents, s.queue, s.claimed)) =
        some ({"agent-a"}, [], [("s1", 60000), ("s1", 120000)]) ∧
      ¬Always step BusyExact (.new oneSchedule 0) stopped := by
  intro stopped restarted
  have hstopped : ((runEvents step (.new oneSchedule 0) stopped).map fun s =>
      (s.busyAgents, s.queue, (List.finRange kWorkerCount).map fun i => (s.workers i).run)) =
      some ({"agent-a"}, [], [none, none, none, none]) := by decide
  refine ⟨hstopped, by decide, fun h => ?_⟩
  obtain ⟨s, hs, hstate⟩ := Option.map_eq_some_iff.1 hstopped
  simp only [Prod.mk.injEq] at hstate
  obtain ⟨hbusy, hqueue, hworkers⟩ := hstate
  have hexact : BusyExact s := h.last hs
  rcases (hexact "agent-a").1 (by rw [hbusy]; decide) with ⟨sched, hsched, -⟩ | ⟨i, run, hrun, -⟩
  · rw [hqueue] at hsched
    cases hsched
  · have hmem := List.mem_map_of_mem (f := fun i => (s.workers i).run) (List.mem_finRange i)
    rw [hworkers, hrun] at hmem
    simp at hmem

end PudimNetMon.Collector.Threads
