import PudimNetMon.Collector.Scheduler
import PudimNetMon.Lib.Admission

/-!
# The threads of one scheduler (`command_scheduler.cpp`)

One `CommandScheduler` with its loop thread, its workers and the API calls on the table it works on. Each critical
section, each statement and each call to an agent is one step, so that the threads interleave between any two of them.
All threads read one clock that does not go back.

- `step_admission`: queue, workers and busy agents are an `Admission`, and only a worker that pops after `Stop` drops
  a run.
-/

namespace PudimNetMon.Collector.Threads

open Storage

abbrev kWorkerCount : Nat := 4

/-- A queued copy of a row that a worker has taken, and the clock's time at that moment. -/
structure Run where
  sched : CommandSchedule
  takenMs : Int64
  deriving DecidableEq, Repr

/-- Where the loop thread stands. -/
inductive LoopAt
  | absent
  | waiting
  | ticking
  | rebased (now : Int64)
  /-- The due rows still to be claimed. -/
  | claiming (now : Int64) (due : List CommandSchedule)
  /-- The compare-and-set went through; the critical section comes next. -/
  | claimed (now : Int64) (sched : CommandSchedule) (rest : List CommandSchedule)
  | returned
  deriving DecidableEq, Repr

/-- Where a worker thread stands. -/
inductive WorkerAt
  | absent
  | waiting
  /-- In front of `InsertCommandRun`. -/
  | recording (run : Run)
  /-- In front of the check of the window's end. -/
  | checking (run : Run)
  /-- The window was open at the time that was read. -/
  | dialing (run : Run) (checkedMs : Int64)
  /-- `RunCommand` is on its way. -/
  | calling (run : Run)
  /-- `ExecuteRun` has returned; the agent is still busy. -/
  | finished (run : Run)
  | returned
  deriving DecidableEq, Repr

/-- The run a worker executes. -/
def WorkerAt.run : WorkerAt → Option Run
  | .recording run | .checking run | .dialing run _ | .calling run | .finished run => some run
  | .absent | .waiting | .returned => none

/-- A `RunCommand` that was issued, with the time read in front of it. -/
structure Issue where
  run : Run
  checkedMs : Int64
  deriving DecidableEq, Repr

structure State where
  table : CommandSchedules
  /-- The last reading of the clock, in nanoseconds. -/
  clock : Int64
  started : Bool := false
  stop : Bool := false
  queue : List CommandSchedule := []
  busyAgents : Finset String := ∅
  loop : LoopAt := .absent
  workers : Fin kWorkerCount → WorkerAt := fun _ => .absent
  /-- What was issued, which slots were claimed, and the time of the last tick since the start. -/
  issued : List Issue := []
  claimed : List Slot := []
  lastTick : Option Int64 := none

inductive Event
  | start
  | stop
  /-- `Stop` has joined the threads and returns. -/
  | join
  /-- The loop's wait ends. -/
  | wake
  | rebase (ns : Int64) (ok : Bool)
  | list (ok : Bool)
  | claim (outcome : ClaimOutcome)
  | enqueue
  | endTick
  /-- The wait of a worker ends. -/
  | take (i : Fin kWorkerCount)
  | record (i : Fin kWorkerCount) (ns : Int64) (ok : Bool)
  | check (i : Fin kWorkerCount) (ns : Int64)
  /-- No endpoint, no live agent or no connection. -/
  | skip (i : Fin kWorkerCount)
  | issue (i : Fin kWorkerCount)
  | reply (i : Fin kWorkerCount)
  | finish (i : Fin kWorkerCount)
  | create (schedule : CommandSchedule)
  | setEnabled (id : String) (enabled : Bool)
  | delete (id : String)
  deriving DecidableEq, Repr

def State.setWorker (s : State) (i : Fin kWorkerCount) (x : WorkerAt) : State :=
  { s with workers := Function.update s.workers i x }

/-- The statement of a claim. -/
def advanceSchedule (s : State) (now : Int64) (sched : CommandSchedule) : Bool × CommandSchedules :=
  advanceCommandScheduleNextRun sched.id sched.nextRunUnixMs
    (nextSlot sched.windowStartUnixMs (sched.intervalSec * 1000) now) s.table

/-- One compare-and-set of the loop over the due rows. -/
def claimRow (s : State) (now : Int64) (sched : CommandSchedule) (rest : List CommandSchedule) :
    ClaimOutcome → State
  | .refused => { s with loop := .claiming now rest }
  | .lostReply => { s with table := (advanceSchedule s now sched).2, loop := .claiming now rest }
  | .done =>
    if (advanceSchedule s now sched).1 then
      { s with table := (advanceSchedule s now sched).2, loop := .claimed now sched rest
               claimed := s.claimed ++ [(sched.id, sched.nextRunUnixMs)] }
    else { s with table := (advanceSchedule s now sched).2, loop := .claiming now rest }

/-- The critical section of the loop behind a claim. -/
def enqueueRow (s : State) (now : Int64) (sched : CommandSchedule) (rest : List CommandSchedule) : State :=
  if s.stop then { s with loop := .returned }
  else if sched.agentId ∈ s.busyAgents then { s with loop := .claiming now rest }
  else
    { s with loop := .claiming now rest, queue := s.queue ++ [sched]
             busyAgents := insert sched.agentId s.busyAgents }

/-- The critical section at the top of `WorkerLoop`, once its wait is over. -/
def takeRun (s : State) (i : Fin kWorkerCount) : Option State :=
  match s.queue with
  | [] => if s.stop then some (s.setWorker i .returned) else none
  | sched :: rest =>
    if s.stop then some (({ s with queue := rest } : State).setWorker i .returned)
    else some (({ s with queue := rest } : State).setWorker i (.recording ⟨sched, nowMs s.clock⟩))

def step (s : State) : Event → Option State
  | .start =>
    if s.started then some s
    else if s.loop = .absent ∧ ∀ i, s.workers i = .absent then
      some { s with started := true, stop := false, loop := .waiting, workers := fun _ => .waiting, lastTick := none }
    else none
  | .stop => if s.started then some { s with started := false, stop := true } else some s
  | .join =>
    if s.started = false ∧ s.loop = .returned ∧ ∀ i, s.workers i = .returned then
      some { s with loop := .absent, workers := fun _ => .absent }
    else none
  | .wake => if s.loop = .waiting then some { s with loop := if s.stop then .returned else .ticking } else none
  | .rebase ns ok =>
    if s.loop = .ticking ∧ s.clock ≤ ns then
      some { s with
        clock := ns, loop := .rebased (nowMs ns), lastTick := some (nowMs ns)
        table := if ok then rescheduleStaleSchedules (nowMs ns) s.table else s.table }
    else none
  | .list ok =>
    match s.loop with
    | .rebased now => some { s with loop := .claiming now (if ok then listDueCommandSchedules now s.table else []) }
    | _ => none
  | .claim outcome =>
    match s.loop with
    | .claiming now (sched :: rest) => some (claimRow s now sched rest outcome)
    | _ => none
  | .enqueue =>
    match s.loop with
    | .claimed now sched rest => some (enqueueRow s now sched rest)
    | _ => none
  | .endTick =>
    match s.loop with
    | .claiming _ [] => some { s with loop := .waiting }
    | _ => none
  | .take i => if s.workers i = .waiting then takeRun s i else none
  | .record i ns ok =>
    match s.workers i with
    | .recording run =>
      if s.clock ≤ ns then
        some (({ s with clock := ns } : State).setWorker i (if ok then .checking run else .finished run))
      else none
    | _ => none
  | .check i ns =>
    match s.workers i with
    | .checking run =>
      if s.clock ≤ ns then
        some (({ s with clock := ns } : State).setWorker i
          (if run.sched.windowEndUnixMs < nowMs ns then .finished run else .dialing run (nowMs ns)))
      else none
    | _ => none
  | .skip i =>
    match s.workers i with
    | .dialing run _ => some (s.setWorker i (.finished run))
    | _ => none
  | .issue i =>
    match s.workers i with
    | .dialing run checkedMs =>
      some (({ s with issued := s.issued ++ [⟨run, checkedMs⟩] } : State).setWorker i (.calling run))
    | _ => none
  | .reply i =>
    match s.workers i with
    | .calling run => some (s.setWorker i (.finished run))
    | _ => none
  | .finish i =>
    match s.workers i with
    | .finished run =>
      some (({ s with busyAgents := s.busyAgents.erase run.sched.agentId } : State).setWorker i .waiting)
    | _ => none
  | .create schedule => some { s with table := s.table.insert schedule }
  | .setEnabled id enabled => some { s with table := setCommandScheduleEnabled id enabled s.table }
  | .delete id => some { s with table := deleteCommandSchedule id s.table }

/-! ## What a step can do -/

/-- The ways a step goes, with their guards. -/
inductive Goes (s : State) : Event → State → Prop
  | started : s.started = true → Goes s .start s
  | start : s.started = false → s.loop = .absent → (∀ i, s.workers i = .absent) →
      Goes s .start { s with
        started := true, stop := false, loop := .waiting, workers := fun _ => .waiting, lastTick := none }
  | stop : s.started = true → Goes s .stop { s with started := false, stop := true }
  | stopped : s.started = false → Goes s .stop s
  | join : s.started = false → s.loop = .returned → (∀ i, s.workers i = .returned) →
      Goes s .join { s with loop := .absent, workers := fun _ => .absent }
  | wakeStop : s.loop = .waiting → s.stop = true → Goes s .wake { s with loop := .returned }
  | wake : s.loop = .waiting → s.stop = false → Goes s .wake { s with loop := .ticking }
  | rebase (ns : Int64) (ok : Bool) : s.loop = .ticking → s.clock ≤ ns →
      Goes s (.rebase ns ok) { s with
        clock := ns, loop := .rebased (nowMs ns), lastTick := some (nowMs ns)
        table := if ok then rescheduleStaleSchedules (nowMs ns) s.table else s.table }
  | list (now : Int64) (ok : Bool) : s.loop = .rebased now →
      Goes s (.list ok) { s with loop := .claiming now (if ok then listDueCommandSchedules now s.table else []) }
  | claimRefused (now : Int64) (sched : CommandSchedule) (rest : List CommandSchedule) :
      s.loop = .claiming now (sched :: rest) → Goes s (.claim .refused) { s with loop := .claiming now rest }
  | claimLost (now : Int64) (sched : CommandSchedule) (rest : List CommandSchedule) :
      s.loop = .claiming now (sched :: rest) →
      Goes s (.claim .lostReply) { s with table := (advanceSchedule s now sched).2, loop := .claiming now rest }
  | claimMissed (now : Int64) (sched : CommandSchedule) (rest : List CommandSchedule) :
      s.loop = .claiming now (sched :: rest) → (advanceSchedule s now sched).1 = false →
      Goes s (.claim .done) { s with table := (advanceSchedule s now sched).2, loop := .claiming now rest }
  | claim (now : Int64) (sched : CommandSchedule) (rest : List CommandSchedule) :
      s.loop = .claiming now (sched :: rest) → (advanceSchedule s now sched).1 = true →
      Goes s (.claim .done) { s with
        table := (advanceSchedule s now sched).2, loop := .claimed now sched rest
        claimed := s.claimed ++ [(sched.id, sched.nextRunUnixMs)] }
  | enqueueStop (now : Int64) (sched : CommandSchedule) (rest : List CommandSchedule) :
      s.loop = .claimed now sched rest → s.stop = true → Goes s .enqueue { s with loop := .returned }
  | enqueueBusy (now : Int64) (sched : CommandSchedule) (rest : List CommandSchedule) :
      s.loop = .claimed now sched rest → sched.agentId ∈ s.busyAgents →
      Goes s .enqueue { s with loop := .claiming now rest }
  | enqueue (now : Int64) (sched : CommandSchedule) (rest : List CommandSchedule) :
      s.loop = .claimed now sched rest → s.stop = false → sched.agentId ∉ s.busyAgents →
      Goes s .enqueue { s with
        loop := .claiming now rest, queue := s.queue ++ [sched], busyAgents := insert sched.agentId s.busyAgents }
  | endTick (now : Int64) : s.loop = .claiming now [] → Goes s .endTick { s with loop := .waiting }
  | takeStop (i : Fin kWorkerCount) : s.workers i = .waiting → s.queue = [] →
      Goes s (.take i) (s.setWorker i .returned)
  | takeDrop (i : Fin kWorkerCount) (sched : CommandSchedule) (rest : List CommandSchedule) :
      s.workers i = .waiting → s.queue = sched :: rest → s.stop = true →
      Goes s (.take i) (({ s with queue := rest } : State).setWorker i .returned)
  | take (i : Fin kWorkerCount) (sched : CommandSchedule) (rest : List CommandSchedule) :
      s.workers i = .waiting → s.queue = sched :: rest → s.stop = false →
      Goes s (.take i) (({ s with queue := rest } : State).setWorker i (.recording ⟨sched, nowMs s.clock⟩))
  | record (i : Fin kWorkerCount) (ns : Int64) (ok : Bool) (run : Run) : s.workers i = .recording run → s.clock ≤ ns →
      Goes s (.record i ns ok)
        (({ s with clock := ns } : State).setWorker i (if ok then .checking run else .finished run))
  | checkLate (i : Fin kWorkerCount) (ns : Int64) (run : Run) : s.workers i = .checking run → s.clock ≤ ns →
      Goes s (.check i ns) (({ s with clock := ns } : State).setWorker i (.finished run))
  | check (i : Fin kWorkerCount) (ns : Int64) (run : Run) : s.workers i = .checking run → s.clock ≤ ns →
      ¬run.sched.windowEndUnixMs < nowMs ns →
      Goes s (.check i ns) (({ s with clock := ns } : State).setWorker i (.dialing run (nowMs ns)))
  | skip (i : Fin kWorkerCount) (run : Run) (checkedMs : Int64) : s.workers i = .dialing run checkedMs →
      Goes s (.skip i) (s.setWorker i (.finished run))
  | issue (i : Fin kWorkerCount) (run : Run) (checkedMs : Int64) : s.workers i = .dialing run checkedMs →
      Goes s (.issue i) (({ s with issued := s.issued ++ [⟨run, checkedMs⟩] } : State).setWorker i (.calling run))
  | reply (i : Fin kWorkerCount) (run : Run) : s.workers i = .calling run →
      Goes s (.reply i) (s.setWorker i (.finished run))
  | finish (i : Fin kWorkerCount) (run : Run) : s.workers i = .finished run →
      Goes s (.finish i)
        (({ s with busyAgents := s.busyAgents.erase run.sched.agentId } : State).setWorker i .waiting)
  | create (schedule : CommandSchedule) : Goes s (.create schedule) { s with table := s.table.insert schedule }
  | setEnabled (id : String) (enabled : Bool) :
      Goes s (.setEnabled id enabled) { s with table := setCommandScheduleEnabled id enabled s.table }
  | delete (id : String) : Goes s (.delete id) { s with table := deleteCommandSchedule id s.table }

variable {s s' : State}

theorem goes_claim {now : Int64} {sched : CommandSchedule} {rest : List CommandSchedule}
    (hl : s.loop = .claiming now (sched :: rest)) (outcome : ClaimOutcome) :
    Goes s (.claim outcome) (claimRow s now sched rest outcome) := by
  cases outcome with
  | refused => exact .claimRefused now sched rest hl
  | lostReply => exact .claimLost now sched rest hl
  | done =>
    unfold claimRow
    by_cases hupdated : (advanceSchedule s now sched).1 = true
    · rw [if_pos hupdated]
      exact .claim now sched rest hl hupdated
    · rw [if_neg hupdated]
      exact .claimMissed now sched rest hl (by simpa using hupdated)

theorem goes_enqueue {now : Int64} {sched : CommandSchedule} {rest : List CommandSchedule}
    (hl : s.loop = .claimed now sched rest) : Goes s .enqueue (enqueueRow s now sched rest) := by
  unfold enqueueRow
  by_cases hstop : s.stop = true
  · rw [if_pos hstop]
    exact .enqueueStop now sched rest hl hstop
  rw [if_neg hstop]
  by_cases hbusy : sched.agentId ∈ s.busyAgents
  · rw [if_pos hbusy]
    exact .enqueueBusy now sched rest hl hbusy
  · rw [if_neg hbusy]
    exact .enqueue now sched rest hl (by simpa using hstop) hbusy

theorem goes_take {i : Fin kWorkerCount} (hi : s.workers i = .waiting) (hs : takeRun s i = some s') :
    Goes s (.take i) s' := by
  unfold takeRun at hs
  split at hs
  · rename_i hq
    split at hs
    · cases hs
      exact .takeStop i hi hq
    · cases hs
  · rename_i sched rest hq
    split at hs
    · rename_i hstop
      cases hs
      exact .takeDrop i sched rest hi hq hstop
    · rename_i hstop
      cases hs
      exact .take i sched rest hi hq (by simpa using hstop)

/-- **Inversion.** -/
theorem step_goes {e : Event} (hs : step s e = some s') : Goes s e s' := by
  cases e with
  | start =>
    simp only [step] at hs
    split at hs
    · rename_i hstarted
      cases hs
      exact .started hstarted
    split at hs
    · rename_i hstarted hjoined
      cases hs
      exact .start (by simpa using hstarted) hjoined.1 hjoined.2
    · cases hs
  | stop =>
    simp only [step] at hs
    split at hs
    · rename_i hstarted
      cases hs
      exact .stop hstarted
    · rename_i hstarted
      cases hs
      exact .stopped (by simpa using hstarted)
  | join =>
    simp only [step] at hs
    split at hs
    · rename_i h
      cases hs
      exact .join h.1 h.2.1 h.2.2
    · cases hs
  | wake =>
    simp only [step] at hs
    split at hs
    · rename_i hl
      cases hs
      by_cases hstop : s.stop = true
      · rw [if_pos hstop]
        exact .wakeStop hl hstop
      · rw [if_neg hstop]
        exact .wake hl (by simpa using hstop)
    · cases hs
  | rebase ns ok =>
    simp only [step] at hs
    split at hs
    · rename_i h
      cases hs
      exact .rebase ns ok h.1 h.2
    · cases hs
  | list ok =>
    simp only [step] at hs
    split at hs
    · rename_i now hl
      cases hs
      exact .list now ok hl
    · cases hs
  | claim outcome =>
    simp only [step] at hs
    split at hs
    · rename_i now sched rest hl
      cases hs
      exact goes_claim hl outcome
    · cases hs
  | enqueue =>
    simp only [step] at hs
    split at hs
    · rename_i now sched rest hl
      cases hs
      exact goes_enqueue hl
    · cases hs
  | endTick =>
    simp only [step] at hs
    split at hs
    · rename_i now hl
      cases hs
      exact .endTick now hl
    · cases hs
  | take i =>
    simp only [step] at hs
    split at hs
    · rename_i hi
      exact goes_take hi hs
    · cases hs
  | record i ns ok =>
    simp only [step] at hs
    split at hs
    · rename_i run hi
      split at hs
      · rename_i hclock
        cases hs
        exact .record i ns ok run hi hclock
      · cases hs
    · cases hs
  | check i ns =>
    simp only [step] at hs
    split at hs
    · rename_i run hi
      split at hs
      · rename_i hclock
        cases hs
        by_cases hlate : run.sched.windowEndUnixMs < nowMs ns
        · rw [if_pos hlate]
          exact .checkLate i ns run hi hclock
        · rw [if_neg hlate]
          exact .check i ns run hi hclock hlate
      · cases hs
    · cases hs
  | skip i =>
    simp only [step] at hs
    split at hs
    · rename_i run checkedMs hi
      cases hs
      exact .skip i run checkedMs hi
    · cases hs
  | issue i =>
    simp only [step] at hs
    split at hs
    · rename_i run checkedMs hi
      cases hs
      exact .issue i run checkedMs hi
    · cases hs
  | reply i =>
    simp only [step] at hs
    split at hs
    · rename_i run hi
      cases hs
      exact .reply i run hi
    · cases hs
  | finish i =>
    simp only [step] at hs
    split at hs
    · rename_i run hi
      cases hs
      exact .finish i run hi
    · cases hs
  | create schedule =>
    cases hs
    exact .create schedule
  | setEnabled id enabled =>
    cases hs
    exact .setEnabled id enabled
  | delete id =>
    cases hs
    exact .delete id

/-! ## Queue, workers and busy agents -/

/-- The agents of the queued runs, of the executed runs, and the busy ones. -/
def State.admission (s : State) : Admission (Fin kWorkerCount) String :=
  { queue := s.queue.map CommandSchedule.agentId
    held := fun i => (s.workers i).run.map fun run => run.sched.agentId
    busy := s.busyAgents }

/-- A worker pops a run after `Stop`. -/
def dropsRun (s : State) : Event → Bool
  | .take _ => s.stop && !s.queue.isEmpty
  | _ => false

@[simp] theorem setWorker_self (s : State) (i : Fin kWorkerCount) (x : WorkerAt) : (s.setWorker i x).workers i = x :=
  Function.update_self ..

theorem setWorker_of_ne (s : State) {i j : Fin kWorkerCount} (x : WorkerAt) (h : j ≠ i) :
    (s.setWorker i x).workers j = s.workers j :=
  Function.update_of_ne h ..

/-- A worker takes a run, moves on with it, or is done with it. -/
theorem admission_setWorker (s : State) (i : Fin kWorkerCount) (x : WorkerAt) :
    (s.setWorker i x).admission = { s.admission with
      held := Function.update s.admission.held i (x.run.map fun run => run.sched.agentId) } := by
  have hheld : (s.setWorker i x).admission.held =
      Function.update s.admission.held i (x.run.map fun run => run.sched.agentId) := by
    funext j
    by_cases hj : j = i
    · subst hj
      simp [State.admission]
    · simp [State.admission, setWorker_of_ne s x hj, hj]
  rw [← hheld]
  rfl

theorem admission_setWorker_same (s : State) {i : Fin kWorkerCount} {x : WorkerAt} (h : x.run = (s.workers i).run) :
    (s.setWorker i x).admission = s.admission := by
  have hheld : (x.run.map fun run => run.sched.agentId) = s.admission.held i := by rw [h]; rfl
  rw [admission_setWorker, hheld, Function.update_eq_self]

/-- All workers come or go without a run. -/
theorem admission_workers (s : State) {x : WorkerAt} (hx : x.run = none) (h : ∀ i, (s.workers i).run = none) :
    ({ s with workers := fun _ => x } : State).admission = s.admission := by
  have hheld : (fun _ : Fin kWorkerCount => x.run.map fun run => run.sched.agentId) = s.admission.held := by
    funext i
    simp [State.admission, hx, h i]
  unfold State.admission at hheld ⊢
  rw [hheld]

/-- **Admission.** What a step does to queue, workers and busy agents. -/
theorem step_admission {e : Event} (hs : step s e = some s') : s.admission.Step (dropsRun s e) s'.admission := by
  cases step_goes hs with
  | start _ _ hworkers =>
    have hsame := admission_workers s (x := .waiting) rfl fun i => by rw [hworkers i]; rfl
    rw [← hsame]
    exact .stay
  | join _ _ hworkers =>
    have hsame := admission_workers s (x := .absent) rfl fun i => by rw [hworkers i]; rfl
    rw [← hsame]
    exact .stay
  | enqueue now sched rest _ _ hfree =>
    have henter := Admission.Step.enter (s := s.admission) sched.agentId hfree
    simpa [State.admission, dropsRun] using henter
  | takeStop i hi hq =>
    rw [admission_setWorker_same s (by rw [hi]; rfl), dropsRun, hq]
    simpa using Admission.Step.stay
  | takeDrop i sched rest hi hq hstop =>
    rw [admission_setWorker_same { s with queue := rest } (by rw [hi]; rfl), dropsRun, hstop, hq]
    exact .drop sched.agentId (rest.map CommandSchedule.agentId) (by simp [State.admission, hq])
  | take i sched rest hi hq hstop =>
    rw [admission_setWorker, dropsRun, hstop]
    exact .take i sched.agentId (rest.map CommandSchedule.agentId) (by simp [State.admission, hq])
      (by simp [State.admission, hi, WorkerAt.run])
  | record i ns ok run hi =>
    rw [admission_setWorker_same { s with clock := ns } (by rw [hi]; cases ok <;> rfl)]
    exact .stay
  | checkLate i ns run hi =>
    rw [admission_setWorker_same { s with clock := ns } (by rw [hi]; rfl)]
    exact .stay
  | check i ns run hi =>
    rw [admission_setWorker_same { s with clock := ns } (by rw [hi]; rfl)]
    exact .stay
  | skip i run checkedMs hi =>
    rw [admission_setWorker_same s (by rw [hi]; rfl)]
    exact .stay
  | issue i run checkedMs hi =>
    rw [admission_setWorker_same { s with issued := s.issued ++ [⟨run, checkedMs⟩] } (by rw [hi]; rfl)]
    exact .stay
  | reply i run hi =>
    rw [admission_setWorker_same s (by rw [hi]; rfl)]
    exact .stay
  | finish i run hi =>
    rw [admission_setWorker]
    exact .release i _ (by simp [State.admission, hi, WorkerAt.run])
  | _ => exact .stay

end PudimNetMon.Collector.Threads
