import Mathlib.Data.Finset.Insert
import Mathlib.Data.Fintype.Option
import PudimNetMon.Collector.Threads
import PudimNetMon.Lib.Wakeups

/-!
# Who wakes whom in a scheduler (`command_scheduler.cpp`)

The loop thread and the workers sleep on one condition variable, with different predicates, and `notify_one` wakes any
of them. The threads of `Threads` with their sleep, their notifications, wakeups without a notification and the
timeouts of the loop.

- `scheduler_prompt`: a queued run never waits for a sleeping worker, since only the loop adds to the queue, and it does
  not sleep then; after `Stop` has notified, nobody sleeps, and its threads return within 77 steps.
-/

namespace PudimNetMon.Collector.Threads

open Storage

/-- A worker, or the loop. -/
abbrev Thread := Option (Fin kWorkerCount)

structure Signalled where
  threads : State
  /-- The threads that sleep on `m_cv`. -/
  asleep : Finset Thread := ∅
  /-- The threads that have left a critical section and call `notify_one` next. -/
  notifying : Finset Thread := ∅
  /-- `Stop` calls `notify_all` next. -/
  alarm : Bool := false

inductive SignalEvent
  | act (e : Event)
  /-- The predicate of a wait is false. -/
  | sleep (t : Thread)
  /-- A timeout, or a wakeup without a notification. -/
  | wake (t : Thread)
  /-- The notification of a thread, and the thread that it wakes. -/
  | notifyOne (t : Thread) (woken : Option Thread)
  | notifyAll

/-- The thread whose step it is; calls of the API come from elsewhere. -/
def Event.thread : Event → Option Thread
  | .wake | .rebase .. | .list _ | .claim _ | .enqueue | .endTick => some none
  | .take i | .record i .. | .check i _ | .skip i | .issue i | .reply i | .finish i => some (some i)
  | .start | .stop | .join | .create _ | .setEnabled .. | .delete _ => none

/-- A step of a thread; the others are those of calls. -/
def SignalEvent.Own : SignalEvent → Prop
  | .act e => e.thread.isSome = true
  | .sleep _ | .wake _ | .notifyOne .. => True
  | .notifyAll => False

/-- The critical section behind a claim adds to the queue. -/
def pushes (s : State) : Bool :=
  match s.loop with
  | .claimed _ sched _ => !s.stop && decide (sched.agentId ∉ s.busyAgents)
  | _ => false

/-- Who notifies behind a step. -/
def notifier (s : State) : Event → Option Thread
  | .enqueue => if pushes s then some none else none
  | .finish i => some (some i)
  | _ => none

/-- The predicate of a thread's wait is false. -/
def waits (s : State) : Thread → Prop
  | none => s.loop = .waiting ∧ s.stop = false
  | some i => s.workers i = .waiting ∧ s.stop = false ∧ s.queue = []

instance (s : State) : ∀ t, Decidable (waits s t)
  | none => inferInstanceAs (Decidable (_ ∧ _))
  | some _ => inferInstanceAs (Decidable (_ ∧ _ ∧ _))

def WorkerAt.stage : WorkerAt → Stage
  | .waiting => .awake
  | .absent | .returned => .gone
  | .recording _ | .checking _ | .dialing .. | .calling _ | .finished _ => .busy

theorem WorkerAt.stage_ne (x : WorkerAt) : x.stage ≠ .asleep := by
  cases x <;> simp [stage]

/-- The steps of the loop before it returns, once it was stopped. -/
def LoopAt.stepsLeft : LoopAt → Nat
  | .absent | .returned => 0
  | .waiting => 1
  | .ticking => 44
  | .rebased _ => 43
  | .claiming _ due => 2 * due.length + 2
  | .claimed _ _ rest => 2 * rest.length + 3

/-- The steps of a worker before it returns, once the scheduler was stopped. -/
def WorkerAt.stepsLeft : WorkerAt → Nat
  | .absent | .returned => 0
  | .waiting => 1
  | .recording _ => 7
  | .checking _ => 6
  | .dialing .. => 5
  | .calling _ => 4
  | .finished _ => 3

namespace Signalled

/-- The thread neither sleeps nor has a notification in front of it. -/
def Free (g : Signalled) (t : Thread) : Prop := t ∉ g.asleep ∧ t ∉ g.notifying

instance (g : Signalled) (t : Thread) : Decidable (g.Free t) := inferInstanceAs (Decidable (_ ∧ _))

/-- A thread acts when it is free, and `Stop` joins after it has notified. -/
def Acts (g : Signalled) (e : Event) : Prop :=
  (∀ t ∈ e.thread, g.Free t) ∧ (e = .join → g.alarm = false)

instance (g : Signalled) (e : Event) : Decidable (g.Acts e) := inferInstanceAs (Decidable (_ ∧ _))

def step (g : Signalled) : SignalEvent → Option Signalled
  | .act e =>
    if g.Acts e then
      (Threads.step g.threads e).map fun s => { g with
        threads := s, notifying := (notifier g.threads e).toFinset ∪ g.notifying
        alarm := g.alarm || decide (e = .stop ∧ g.threads.started = true) }
    else none
  | .sleep t => if g.Free t ∧ waits g.threads t then some { g with asleep := insert t g.asleep } else none
  | .wake t => if t ∈ g.asleep then some { g with asleep := g.asleep.erase t } else none
  | .notifyOne t woken =>
    if t ∈ g.notifying then
      match woken with
      | some u =>
        if u ∈ g.asleep then some { g with asleep := g.asleep.erase u, notifying := g.notifying.erase t } else none
      | none => if g.asleep = ∅ then some { g with notifying := g.notifying.erase t } else none
    else none
  | .notifyAll => if g.alarm then some { g with asleep := ∅, alarm := false } else none

/-! ## The workers as servers of the queue -/

def stage (g : Signalled) (i : Fin kWorkerCount) : Stage :=
  if some i ∈ g.asleep then .asleep else (g.threads.workers i).stage

structure Inv (g : Signalled) : Prop where
  loopAsleep : none ∈ g.asleep → g.threads.loop = .waiting
  workerAsleep : ∀ i, some i ∈ g.asleep → g.threads.workers i = .waiting
  loopNotifying : none ∈ g.notifying → none ∉ g.asleep ∧ ∃ now due, g.threads.loop = .claiming now due
  workerNotifying : ∀ i, some i ∈ g.notifying → some i ∉ g.asleep ∧ g.threads.workers i = .waiting
  /-- A tick has at most 20 rows in front of it. -/
  loopSteps : g.threads.loop.stepsLeft ≤ 44
  stopped : g.threads.stop = true → g.alarm = false → g.asleep = ∅
  covered : Covered g.threads.queue.length (if none ∈ g.notifying then 1 else 0) g.stage

variable {g g' : Signalled} {s : State}

/-- A step of the loop that leaves queue and workers alone. -/
theorem Inv.loopStep (h : Inv g) (hfree : g.Free none) (hqueue : s.queue = g.threads.queue)
    (hworkers : s.workers = g.threads.workers) (hstop : s.stop = g.threads.stop) (hsteps : s.loop.stepsLeft ≤ 44) :
    Inv { g with threads := s } where
  loopAsleep := fun hmem => absurd hmem hfree.1
  workerAsleep := by simpa only [hworkers] using h.workerAsleep
  loopNotifying := fun hmem => absurd hmem hfree.2
  workerNotifying := by simpa only [hworkers] using h.workerNotifying
  loopSteps := hsteps
  stopped := by simpa only [hstop] using h.stopped
  covered := by
    have hstage : stage { g with threads := s } = g.stage := by
      funext i
      simp only [stage, hworkers]
    rw [hstage]
    simpa only [hqueue] using h.covered

/-- A call, which leaves the threads alone. -/
theorem Inv.call (h : Inv g) {alarm : Bool} (hqueue : s.queue = g.threads.queue)
    (hworkers : s.workers = g.threads.workers) (hloop : s.loop = g.threads.loop)
    (hstopped : s.stop = true → alarm = false → g.asleep = ∅) : Inv { g with threads := s, alarm } where
  loopAsleep := by simpa only [hloop] using h.loopAsleep
  workerAsleep := by simpa only [hworkers] using h.workerAsleep
  loopNotifying := by simpa only [hloop] using h.loopNotifying
  workerNotifying := by simpa only [hworkers] using h.workerNotifying
  loopSteps := by simpa only [hloop] using h.loopSteps
  stopped := hstopped
  covered := by
    have hstage : stage { g with threads := s, alarm } = g.stage := by
      funext i
      simp only [stage, hworkers]
    rw [hstage]
    simpa only [hqueue] using h.covered

theorem stage_setWorker {i : Fin kWorkerCount} {x : WorkerAt} (hfree : some i ∉ g.asleep)
    (hworkers : s.workers = Function.update g.threads.workers i x) (notifying : Finset Thread) :
    stage { g with threads := s, notifying } = Function.update g.stage i x.stage := by
  funext v
  simp only [stage, hworkers, Function.update_apply]
  by_cases hv : v = i
  · rw [hv, if_neg hfree, if_pos rfl, if_pos rfl]
  · rw [if_neg hv, if_neg hv]

/-- A step of a worker, with what it does to the queue. -/
theorem Inv.workerStep (h : Inv g) {i : Fin kWorkerCount} {x : WorkerAt} (hfree : g.Free (some i))
    (hworkers : s.workers = Function.update g.threads.workers i x) (hloop : s.loop = g.threads.loop)
    (hstop : s.stop = g.threads.stop)
    (hqueue : Covered s.queue.length (if none ∈ g.notifying then 1 else 0) (Function.update g.stage i x.stage)) :
    Inv { g with threads := s } where
  loopAsleep := by simpa only [hloop] using h.loopAsleep
  workerAsleep := by
    intro v hv
    have hne : v ≠ i := fun heq => hfree.1 (heq ▸ hv)
    simp only [hworkers, Function.update_of_ne hne]
    exact h.workerAsleep v hv
  loopNotifying := by simpa only [hloop] using h.loopNotifying
  workerNotifying := by
    intro v hv
    have hne : v ≠ i := fun heq => hfree.2 (heq ▸ hv)
    simp only [hworkers, Function.update_of_ne hne]
    exact h.workerNotifying v hv
  loopSteps := by simpa only [hloop] using h.loopSteps
  stopped := by simpa only [hstop] using h.stopped
  covered := by
    rw [stage_setWorker hfree.1 hworkers]
    exact hqueue

/-- A worker goes on with its run. -/
theorem Inv.workerBusy (h : Inv g) {i : Fin kWorkerCount} {x : WorkerAt} (hfree : g.Free (some i))
    (hbusy : g.threads.workers i ≠ .waiting) (hworkers : s.workers = Function.update g.threads.workers i x)
    (hloop : s.loop = g.threads.loop) (hstop : s.stop = g.threads.stop) (hqueue : s.queue = g.threads.queue) :
    Inv { g with threads := s } := by
  refine h.workerStep hfree hworkers hloop hstop ?_
  rw [hqueue]
  refine h.covered.move ?_ x.stage_ne
  rw [stage, if_neg hfree.1]
  intro hawake
  cases hi : g.threads.workers i <;> simp [hi, WorkerAt.stage] at hawake hbusy

/-- A worker takes a run off the queue. -/
theorem Inv.workerTakes (h : Inv g) {i : Fin kWorkerCount} {x : WorkerAt} {sched : CommandSchedule}
    {rest : List CommandSchedule} (hfree : g.Free (some i)) (hi : g.threads.workers i = .waiting)
    (hqueue : g.threads.queue = sched :: rest) :
    Inv { g with threads := ({ g.threads with queue := rest } : State).setWorker i x } := by
  refine h.workerStep hfree rfl rfl rfl ?_
  have hcovered := h.covered
  rw [hqueue, List.length_cons] at hcovered
  refine hcovered.take ?_ x.stage_ne
  rw [stage, if_neg hfree.1, hi]
  rfl

/-- Behind its last critical section of a run the worker notifies. -/
theorem Inv.willNotify (h : Inv g) {i : Fin kWorkerCount} (hfree : some i ∉ g.asleep)
    (hwaiting : g.threads.workers i = .waiting) : Inv { g with notifying := {some i} ∪ g.notifying } where
  loopAsleep := h.loopAsleep
  workerAsleep := h.workerAsleep
  loopNotifying := fun hmem => h.loopNotifying (by simpa using hmem)
  workerNotifying := by
    intro v hv
    rcases Finset.mem_union.1 hv with hv | hv
    · cases Finset.mem_singleton.1 hv
      exact ⟨hfree, hwaiting⟩
    · exact h.workerNotifying v hv
  loopSteps := h.loopSteps
  stopped := h.stopped
  covered := by
    have hsame : none ∈ {some i} ∪ g.notifying ↔ none ∈ g.notifying := by simp
    simp only [hsame]
    exact h.covered

theorem step_act {e : Event} (hs : g.step (.act e) = some g') :
    g.Acts e ∧ ∃ s, Goes g.threads e s ∧ g' = { g with
      threads := s, notifying := (notifier g.threads e).toFinset ∪ g.notifying
      alarm := g.alarm || decide (e = .stop ∧ g.threads.started = true) } := by
  simp only [step] at hs
  split at hs
  · rename_i hacts
    obtain ⟨s, hstep, rfl⟩ := Option.map_eq_some_iff.1 hs
    exact ⟨hacts, s, step_goes hstep, rfl⟩
  · cases hs

/-- A step that nobody notifies behind. -/
theorem quiet {e : Event} (hnotifier : notifier g.threads e = none)
    (hstop : e ≠ .stop ∨ g.threads.started = false) :
    ({ g with threads := s, notifying := (notifier g.threads e).toFinset ∪ g.notifying
              alarm := g.alarm || decide (e = .stop ∧ g.threads.started = true) } : Signalled) =
      { g with threads := s } := by
  have hquiet : decide (e = .stop ∧ g.threads.started = true) = false := by
    rw [decide_eq_false_iff_not]
    rintro ⟨heq, hstarted⟩
    rcases hstop with hne | hstop
    · exact hne heq
    · rw [hstop] at hstarted
      cases hstarted
  rw [hnotifier, Option.toFinset_none, Finset.empty_union, hquiet, Bool.or_false]

/-- What a tick lists is short. -/
theorem list_short (now : Int64) (ok : Bool) (t : CommandSchedules) :
    (LoopAt.claiming now (if ok then listDueCommandSchedules now t else [])).stepsLeft ≤ 42 := by
  have hshort : (listDueCommandSchedules now t).length ≤ 20 := List.length_take_le ..
  cases ok
  · simp [LoopAt.stepsLeft]
  · simp only [LoopAt.stepsLeft, if_true]
    omega

/-- The threads are replaced while none of them sleeps or notifies. -/
theorem Inv.restart (h : Inv g) (hloop : g.threads.loop ≠ .waiting)
    (hclaiming : ∀ now due, g.threads.loop ≠ .claiming now due) (hworkers : ∀ i, g.threads.workers i ≠ .waiting)
    (hsteps : s.loop.stepsLeft ≤ 44) : Inv { g with threads := s } := by
  have hasleep : ∀ t, t ∉ g.asleep := by
    intro t ht
    cases t with
    | none => exact hloop (h.loopAsleep ht)
    | some i => exact hworkers i (h.workerAsleep i ht)
  have hnotifying : ∀ t, t ∉ g.notifying := by
    intro t ht
    cases t with
    | none =>
      obtain ⟨-, now, due, hat⟩ := h.loopNotifying ht
      exact hclaiming now due hat
    | some i => exact hworkers i (h.workerNotifying i ht).2
  exact {
    loopAsleep := fun ht => absurd ht (hasleep _)
    workerAsleep := fun i hi => absurd hi (hasleep _)
    loopNotifying := fun ht => absurd ht (hnotifying _)
    workerNotifying := fun i hi => absurd hi (hnotifying _)
    loopSteps := hsteps
    stopped := fun _ _ => Finset.eq_empty_of_forall_notMem hasleep
    covered := .inl fun i => by
      rw [stage, if_neg (hasleep _)]
      exact WorkerAt.stage_ne _ }

theorem Inv.act {e : Event} (h : Inv g) (hs : g.step (.act e) = some g') : Inv g' := by
  obtain ⟨⟨hfree, hjoin⟩, s, hgoes, rfl⟩ := step_act hs
  cases hgoes with
  | started =>
    rw [quiet rfl (.inl (by simp))]
    exact h
  | start hstarted hloop hworkers =>
    rw [quiet rfl (.inl (by simp))]
    exact h.restart (by simp [hloop]) (by simp [hloop]) (by simp [hworkers]) (by simp [LoopAt.stepsLeft])
  | stop hstarted =>
    rw [show notifier g.threads .stop = none from rfl, Option.toFinset_none, Finset.empty_union,
      show (g.alarm || decide (Event.stop = .stop ∧ g.threads.started = true)) = true by simp [hstarted]]
    exact h.call rfl rfl rfl fun _ halarm => by cases halarm
  | stopped hstarted =>
    rw [quiet rfl (.inr hstarted)]
    exact h
  | join hstarted hloop hworkers =>
    rw [quiet rfl (.inl (by simp))]
    exact h.restart (by simp [hloop]) (by simp [hloop]) (by simp [hworkers]) (by simp [LoopAt.stepsLeft])
  | wakeStop hloop hstop =>
    rw [quiet rfl (.inl (by simp))]
    exact h.loopStep (hfree none rfl) rfl rfl rfl (Nat.zero_le _)
  | wake hloop hstop =>
    rw [quiet rfl (.inl (by simp))]
    exact h.loopStep (hfree none rfl) rfl rfl rfl (Nat.le_refl _)
  | rebase ns ok hloop hclock =>
    rw [quiet rfl (.inl (by simp))]
    exact h.loopStep (hfree none rfl) rfl rfl rfl (by simp [LoopAt.stepsLeft])
  | list now ok hloop =>
    rw [quiet rfl (.inl (by simp))]
    exact h.loopStep (hfree none rfl) rfl rfl rfl ((list_short ..).trans (by omega))
  | claimRefused _ _ _ hloop | claimLost _ _ _ hloop | claimMissed _ _ _ hloop _ | claim _ _ _ hloop _ =>
    rw [quiet rfl (.inl (by simp))]
    have hsteps := h.loopSteps
    rw [hloop] at hsteps
    refine h.loopStep (hfree none rfl) rfl rfl rfl ?_
    simp only [LoopAt.stepsLeft, List.length_cons] at hsteps ⊢
    omega
  | enqueueStop now sched rest hloop hstop =>
    rw [quiet (by simp [notifier, pushes, hloop, hstop]) (.inl (by simp))]
    exact h.loopStep (hfree none rfl) rfl rfl rfl (Nat.zero_le _)
  | enqueueBusy now sched rest hloop hbusy =>
    rw [quiet (by simp [notifier, pushes, hloop, hbusy]) (.inl (by simp))]
    have hsteps := h.loopSteps
    rw [hloop] at hsteps
    refine h.loopStep (hfree none rfl) rfl rfl rfl ?_
    simp only [LoopAt.stepsLeft] at hsteps ⊢
    omega
  | enqueue now sched rest hloop hstop hbusy =>
    have hpushes : pushes g.threads = true := by simp [pushes, hloop, hstop, hbusy]
    have hnotifier : (notifier g.threads .enqueue).toFinset = {none} := by
      rw [notifier, if_pos hpushes, Option.toFinset_some]
    have hfree := hfree none rfl
    have hsteps := h.loopSteps
    rw [hloop] at hsteps
    have hcovered := h.covered
    rw [if_neg hfree.2] at hcovered
    rw [hnotifier, show (g.alarm || decide (Event.enqueue = .stop ∧ g.threads.started = true)) = g.alarm by simp]
    refine ⟨fun ht => absurd ht hfree.1, h.workerAsleep, fun _ => ⟨hfree.1, now, rest, rfl⟩, fun i hi => ?_, ?_,
      h.stopped, ?_⟩
    · exact h.workerNotifying i (by simpa using hi)
    · simp only [LoopAt.stepsLeft] at hsteps ⊢
      omega
    · rw [if_pos (by simp), List.length_append, List.length_singleton]
      exact hcovered.add
  | endTick now hloop =>
    rw [quiet rfl (.inl (by simp))]
    exact h.loopStep (hfree none rfl) rfl rfl rfl (by simp [LoopAt.stepsLeft])
  | takeStop i hi hempty =>
    rw [quiet rfl (.inl (by simp))]
    refine h.workerStep (hfree (some i) rfl) rfl rfl rfl (.inr ?_)
    simp [State.setWorker, hempty]
  | takeDrop i _ _ hi hqueue _ | take i _ _ hi hqueue _ =>
    rw [quiet rfl (.inl (by simp))]
    exact h.workerTakes (hfree (some i) rfl) hi hqueue
  | record i _ _ _ hi _ | checkLate i _ _ hi _ | check i _ _ hi _ _ | skip i _ _ hi | issue i _ _ hi | reply i _ hi =>
    -- a worker in the middle of a run: the queue and the sleepers stay as they are
    rw [quiet rfl (.inl (by simp))]
    exact h.workerBusy (hfree (some i) rfl) (by simp [hi]) rfl rfl rfl rfl
  | finish i run hi =>
    have hmove := h.workerBusy (x := .waiting) (hfree (some i) rfl) (by simp [hi])
      (s := ({ g.threads with busyAgents := g.threads.busyAgents.erase run.sched.agentId } : State).setWorker i
        .waiting)
      rfl rfl rfl rfl
    rw [show (g.alarm || decide (Event.finish i = .stop ∧ g.threads.started = true)) = g.alarm by simp]
    exact hmove.willNotify (hfree (some i) rfl).1 (Function.update_self ..)
  | create | setEnabled | delete =>
    rw [quiet rfl (.inl (by simp))]
    exact h.call rfl rfl rfl h.stopped

/-- A sleeper wakes, while notifications other than that of the loop may have been made. -/
theorem Inv.woken (h : Inv g) {u : Thread} (hu : u ∈ g.asleep) {notifying : Finset Thread}
    (hsub : notifying ⊆ g.notifying) (hloop : u = none → (none ∈ notifying ↔ none ∈ g.notifying)) :
    Inv { g with asleep := g.asleep.erase u, notifying } where
  loopAsleep := fun ht => h.loopAsleep (Finset.mem_of_mem_erase ht)
  workerAsleep := fun i hi => h.workerAsleep i (Finset.mem_of_mem_erase hi)
  loopNotifying := fun ht =>
    ⟨fun hmem => (h.loopNotifying (hsub ht)).1 (Finset.mem_of_mem_erase hmem), (h.loopNotifying (hsub ht)).2⟩
  workerNotifying := fun i hi =>
    ⟨fun hmem => (h.workerNotifying i (hsub hi)).1 (Finset.mem_of_mem_erase hmem), (h.workerNotifying i (hsub hi)).2⟩
  loopSteps := h.loopSteps
  stopped := fun hstop halarm => by
    rw [h.stopped hstop halarm] at hu
    exact absurd hu (Finset.notMem_empty u)
  covered := by
    cases u with
    | none =>
      have hstage : stage { g with asleep := g.asleep.erase none, notifying } = g.stage := by
        funext i
        simp [stage]
      rw [hstage]
      simp only [hloop rfl]
      exact h.covered
    | some i =>
      have hstage : stage { g with asleep := g.asleep.erase (some i), notifying } =
          Function.update g.stage i .awake := by
        funext v
        rw [Function.update_apply]
        split
        · rename_i heq
          rw [heq, stage, if_neg (by simp), h.workerAsleep i hu]
          rfl
        · rename_i hne
          simp [stage, hne]
      rw [hstage]
      refine h.covered.wake (if_pos hu) ?_
      split <;> omega

theorem Inv.sleep (h : Inv g) {t : Thread} (hs : g.step (.sleep t) = some g') : Inv g' := by
  simp only [step] at hs
  split at hs
  · rename_i hsleeps
    obtain ⟨hfree, hwaits⟩ := hsleeps
    cases hs
    cases t with
    | none =>
      refine ⟨fun _ => hwaits.1, fun i hi => h.workerAsleep i (by simpa using hi), fun ht => absurd ht hfree.2,
        fun i hi => ⟨by simpa using (h.workerNotifying i hi).1, (h.workerNotifying i hi).2⟩, h.loopSteps, ?_, ?_⟩
      · intro hstop
        exact absurd hstop (by simp [hwaits.2])
      · have hstage : stage { g with asleep := insert none g.asleep } = g.stage := by
          funext i
          simp [stage]
        rw [hstage]
        exact h.covered
    | some i =>
      refine ⟨fun ht => h.loopAsleep (by simpa using ht), fun v hv => ?_,
        fun ht => ⟨by simpa using (h.loopNotifying ht).1, (h.loopNotifying ht).2⟩, fun v hv => ?_, h.loopSteps, ?_, ?_⟩
      · rcases Finset.mem_insert.1 hv with heq | hv
        · cases heq
          exact hwaits.1
        · exact h.workerAsleep v hv
      · refine ⟨fun hmem => ?_, (h.workerNotifying v hv).2⟩
        rcases Finset.mem_insert.1 hmem with heq | hmem
        · exact hfree.2 (heq ▸ hv)
        · exact (h.workerNotifying v hv).1 hmem
      · intro hstop
        exact absurd hstop (by simp [hwaits.2.1])
      · right
        simp [hwaits.2.2]
  · cases hs

theorem Inv.notifyOne (h : Inv g) {t : Thread} {woken : Option Thread} (hs : g.step (.notifyOne t woken) = some g') :
    Inv g' := by
  simp only [step] at hs
  split at hs
  · rename_i ht
    cases woken with
    | some u =>
      dsimp only at hs
      split at hs
      · rename_i hu
        cases hs
        refine h.woken hu (Finset.erase_subset t _) fun hloop => ?_
        have hne : none ≠ t := fun heq => (h.loopNotifying (heq ▸ ht)).1 (hloop ▸ hu)
        simp [hne]
      · cases hs
    | none =>
      dsimp only at hs
      split at hs
      · rename_i hempty
        cases hs
        refine ⟨h.loopAsleep, h.workerAsleep, fun hmem => h.loopNotifying (Finset.mem_of_mem_erase hmem),
          fun i hi => h.workerNotifying i (Finset.mem_of_mem_erase hi), h.loopSteps, h.stopped, .inl fun i => ?_⟩
        rw [stage, if_neg (by simp [hempty])]
        exact WorkerAt.stage_ne _
      · cases hs
  · cases hs

theorem Inv.step {e : SignalEvent} (h : Inv g) (hs : g.step e = some g') : Inv g' := by
  cases e with
  | act e => exact h.act hs
  | sleep t => exact h.sleep hs
  | wake t =>
    simp only [Signalled.step] at hs
    split at hs
    · rename_i ht
      cases hs
      exact h.woken ht (Finset.Subset.refl _) fun _ => Iff.rfl
    · cases hs
  | notifyOne t woken => exact h.notifyOne hs
  | notifyAll =>
    simp only [Signalled.step] at hs
    split at hs
    · cases hs
      refine ⟨by simp, by simp, fun ht => ⟨by simp, (h.loopNotifying ht).2⟩,
        fun i hi => ⟨by simp, (h.workerNotifying i hi).2⟩, h.loopSteps, fun _ _ => rfl, .inl fun i => ?_⟩
      rw [stage, if_neg (by simp)]
      exact WorkerAt.stage_ne _
    · cases hs

theorem inv_start (table : CommandSchedules) (clock : Int64) : Inv { threads := { table, clock } } where
  loopAsleep := by simp
  workerAsleep := by simp
  loopNotifying := by simp
  workerNotifying := by simp
  loopSteps := by simp [LoopAt.stepsLeft]
  stopped := fun _ _ => rfl
  covered := .inl fun _ => by
    rw [stage, if_neg (by simp)]
    exact WorkerAt.stage_ne _

/-! ## Stop -/

/-- Bounds the steps of the threads once the scheduler was stopped. -/
def stepsLeft (g : Signalled) : Nat :=
  g.threads.loop.stepsLeft + weigh WorkerAt.stepsLeft g.threads.workers + g.notifying.card

theorem stepsLeft_setWorker {i : Fin kWorkerCount} {x : WorkerAt} (hloop : s.loop = g.threads.loop)
    (hworkers : s.workers = Function.update g.threads.workers i x)
    (hx : x.stepsLeft < (g.threads.workers i).stepsLeft) : stepsLeft { g with threads := s } < stepsLeft g := by
  have hsum := weigh_update WorkerAt.stepsLeft g.threads.workers i x
  simp only [stepsLeft, hloop, hworkers]
  omega

theorem stepsLeft_loop (hworkers : s.workers = g.threads.workers)
    (hloop : s.loop.stepsLeft < g.threads.loop.stepsLeft) : stepsLeft { g with threads := s } < stepsLeft g := by
  simp only [stepsLeft, hworkers]
  omega

theorem stepsLeft_act {e : Event} (hstop : g.threads.stop = true) (he : e.thread.isSome = true)
    (hs : g.step (.act e) = some g') : stepsLeft g' < stepsLeft g := by
  obtain ⟨⟨hfree, -⟩, s, hgoes, rfl⟩ := step_act hs
  cases hgoes with
  | started | start | stop | stopped | join | create | setEnabled | delete => cases he
  | wakeStop hloop _ =>
    rw [quiet rfl (.inl (by simp))]
    exact stepsLeft_loop rfl (by simp [hloop, LoopAt.stepsLeft])
  | wake _ hopen | enqueue _ _ _ _ hopen _ | take _ _ _ _ _ hopen => simp [hopen] at hstop
  | rebase ns ok hloop _ =>
    rw [quiet rfl (.inl (by simp))]
    exact stepsLeft_loop rfl (by simp [hloop, LoopAt.stepsLeft])
  | list now ok hloop =>
    rw [quiet rfl (.inl (by simp))]
    refine stepsLeft_loop rfl (Nat.lt_of_le_of_lt (list_short ..) ?_)
    simp [hloop, LoopAt.stepsLeft]
  | claimRefused _ _ _ hloop | claimLost _ _ _ hloop | claimMissed _ _ _ hloop _ | claim _ _ _ hloop _ =>
    rw [quiet rfl (.inl (by simp))]
    exact stepsLeft_loop rfl (by simp only [hloop, LoopAt.stepsLeft, List.length_cons]; omega)
  | enqueueStop _ _ _ hloop _ =>
    rw [quiet (by simp [notifier, pushes, hloop, hstop]) (.inl (by simp))]
    exact stepsLeft_loop rfl (by simp [hloop, LoopAt.stepsLeft])
  | enqueueBusy _ _ _ hloop hbusy =>
    rw [quiet (by simp [notifier, pushes, hloop, hbusy]) (.inl (by simp))]
    exact stepsLeft_loop rfl (by simp [hloop, LoopAt.stepsLeft])
  | endTick _ hloop =>
    rw [quiet rfl (.inl (by simp))]
    exact stepsLeft_loop rfl (by simp [hloop, LoopAt.stepsLeft])
  | takeStop i hi _ | takeDrop i _ _ hi _ _ =>
    rw [quiet rfl (.inl (by simp))]
    exact stepsLeft_setWorker rfl rfl (by simp [hi, WorkerAt.stepsLeft])
  | record i ns ok run hi _ =>
    rw [quiet rfl (.inl (by simp))]
    refine stepsLeft_setWorker rfl rfl ?_
    cases ok <;> simp [hi, WorkerAt.stepsLeft]
  | checkLate i _ _ hi _ | check i _ _ hi _ _ | skip i _ _ hi | issue i _ _ hi | reply i _ hi =>
    rw [quiet rfl (.inl (by simp))]
    exact stepsLeft_setWorker rfl rfl (by simp [hi, WorkerAt.stepsLeft])
  | finish i run hi =>
    have hsum := weigh_update WorkerAt.stepsLeft g.threads.workers i .waiting
    have hnew : some i ∉ g.notifying := (hfree (some i) rfl).2
    rw [hi] at hsum
    simp only [WorkerAt.stepsLeft] at hsum
    simp only [stepsLeft, State.setWorker, notifier, Option.toFinset_some, Finset.singleton_union,
      Finset.card_insert_of_notMem hnew]
    omega

theorem stepsLeft_own {e : SignalEvent} (hstop : g.threads.stop = true) (hasleep : g.asleep = ∅) (he : e.Own)
    (hs : g.step e = some g') : stepsLeft g' < stepsLeft g := by
  cases e with
  | act e => exact stepsLeft_act hstop he hs
  | sleep t =>
    simp only [step] at hs
    split at hs
    · rename_i hsleeps
      cases t with
      | none => exact absurd hsleeps.2.2 (by simp [hstop])
      | some i => exact absurd hsleeps.2.2.1 (by simp [hstop])
    · cases hs
  | wake t => simp [step, hasleep] at hs
  | notifyOne t woken =>
    simp only [step] at hs
    split at hs
    · rename_i ht
      cases woken with
      | some u => simp [hasleep] at hs
      | none =>
        simp only [hasleep] at hs
        cases hs
        have hcard := Finset.card_erase_lt_of_mem ht
        simp only [stepsLeft]
        omega
    · cases hs
  | notifyAll => exact absurd he id

theorem stepsLeft_le (h : Inv g) : stepsLeft g ≤ 77 := by
  have hworkers : weigh WorkerAt.stepsLeft g.threads.workers ≤ Fintype.card (Fin kWorkerCount) * 7 :=
    weigh_le (fun x => by cases x <;> simp [WorkerAt.stepsLeft]) _
  have hnotifying : g.notifying.card ≤ Fintype.card Thread := Finset.card_le_univ _
  rw [Fintype.card_option] at hnotifying
  rw [Fintype.card_fin] at hworkers hnotifying
  have hloop := h.loopSteps
  have hcount : kWorkerCount = 4 := rfl
  simp only [stepsLeft]
  omega

/-- No thread has a step. -/
def Resting (g : Signalled) : Prop := ∀ e : SignalEvent, e.Own → g.step e = none

theorem Resting.act (h : Resting g) {e : Event} (he : e.thread.isSome = true) (hfree : ∀ t, g.Free t) :
    Threads.step g.threads e = none := by
  have hnone := h (.act e) he
  have hacts : g.Acts e := ⟨fun t _ => hfree t, fun heq => by rw [heq] at he; cases he⟩
  simpa only [step, if_pos hacts, Option.map_eq_none_iff] using hnone

theorem Resting.free (h : Resting g) (hasleep : g.asleep = ∅) (t : Thread) : g.Free t := by
  refine ⟨by simp [hasleep], fun ht => ?_⟩
  have hnone := h (.notifyOne t none) trivial
  simp [step, ht, hasleep] at hnone

theorem Resting.loop (h : Resting g) (hfree : ∀ t, g.Free t) :
    g.threads.loop = .absent ∨ g.threads.loop = .returned := by
  cases hloop : g.threads.loop with
  | absent => exact .inl rfl
  | waiting => simpa [Threads.step, hloop] using h.act (e := .wake) rfl hfree
  | ticking => simpa [Threads.step, hloop] using h.act (e := .rebase g.threads.clock true) rfl hfree
  | rebased now => simpa [Threads.step, hloop] using h.act (e := .list true) rfl hfree
  | claiming now due =>
    cases due with
    | nil => simpa [Threads.step, hloop] using h.act (e := .endTick) rfl hfree
    | cons sched rest => simpa [Threads.step, hloop] using h.act (e := .claim .refused) rfl hfree
  | claimed now sched rest => simpa [Threads.step, hloop] using h.act (e := .enqueue) rfl hfree
  | returned => exact .inr rfl

theorem Resting.worker (h : Resting g) (hstop : g.threads.stop = true) (hfree : ∀ t, g.Free t)
    (i : Fin kWorkerCount) : g.threads.workers i = .absent ∨ g.threads.workers i = .returned := by
  cases hi : g.threads.workers i with
  | absent => exact .inl rfl
  | waiting =>
    have htake := h.act (e := .take i) rfl hfree
    simp only [Threads.step, if_pos hi, takeRun, hstop, if_true] at htake
    split at htake <;> cases htake
  | recording run => simpa [Threads.step, hi] using h.act (e := .record i g.threads.clock true) rfl hfree
  | checking run => simpa [Threads.step, hi] using h.act (e := .check i g.threads.clock) rfl hfree
  | dialing run checkedMs => simpa [Threads.step, hi] using h.act (e := .skip i) rfl hfree
  | calling run => simpa [Threads.step, hi] using h.act (e := .reply i) rfl hfree
  | finished run => simpa [Threads.step, hi] using h.act (e := .finish i) rfl hfree
  | returned => exact .inr rfl

structure Prompt (g : Signalled) : Prop where
  /-- Once the loop has notified, a queued run waits for a worker that looks for it, or all workers are up. -/
  noLostWakeup : none ∉ g.notifying → g.threads.queue ≠ [] →
    (∃ i, g.threads.workers i = .waiting ∧ some i ∉ g.asleep) ∨ ∀ i, some i ∉ g.asleep
  /-- Once `Stop` has notified, nobody sleeps. -/
  up : g.threads.stop = true → g.alarm = false → g.asleep = ∅
  /-- From then on each step of a thread brings `Stop` closer to its end. -/
  settles : g.threads.stop = true → g.alarm = false → ∀ e g', e.Own → g.step e = some g' →
    stepsLeft g' < stepsLeft g
  bounded : stepsLeft g ≤ 77
  /-- When none of them has a step, they have returned. -/
  joined : g.threads.stop = true → g.alarm = false → Resting g →
    (g.threads.loop = .absent ∨ g.threads.loop = .returned) ∧
      ∀ i, g.threads.workers i = .absent ∨ g.threads.workers i = .returned

theorem Inv.served (h : Inv g) (hnotified : none ∉ g.notifying) (hqueue : g.threads.queue ≠ []) :
    (∃ i, g.threads.workers i = .waiting ∧ some i ∉ g.asleep) ∨ ∀ i, some i ∉ g.asleep := by
  have hcovered := h.covered
  rw [if_neg hnotified] at hcovered
  rcases hcovered.served (List.length_pos_iff.2 hqueue) with ⟨i, hi⟩ | hup
  · left
    refine ⟨i, ?_⟩
    unfold stage at hi
    split at hi
    · cases hi
    · rename_i hasleep
      refine ⟨?_, hasleep⟩
      cases hw : g.threads.workers i <;> simp [hw, WorkerAt.stage] at hi ⊢
  · right
    intro i hi
    exact hup i (if_pos hi)

theorem Inv.prompt (h : Inv g) : Prompt g where
  noLostWakeup := h.served
  up := h.stopped
  settles := fun hstop halarm _ _ he hs => stepsLeft_own hstop (h.stopped hstop halarm) he hs
  bounded := stepsLeft_le h
  joined := fun hstop halarm hrest =>
    ⟨hrest.loop (hrest.free (h.stopped hstop halarm)), hrest.worker hstop (hrest.free (h.stopped hstop halarm))⟩

end Signalled

/-- **Main.** In every run of a scheduler that is started, stopped and started again, on any table. -/
theorem scheduler_prompt (table : CommandSchedules) (clock : Int64) (events : List SignalEvent) :
    Always Signalled.step Signalled.Prompt { threads := { table, clock } } events :=
  always_of_inv (fun _ _ _ h hs => Signalled.Inv.step h hs) (fun _ h => h.prompt) (Signalled.inv_start table clock)

end PudimNetMon.Collector.Threads
