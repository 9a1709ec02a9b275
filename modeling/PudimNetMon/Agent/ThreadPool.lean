import Mathlib.Algebra.Order.BigOperators.Group.Finset
import Mathlib.Algebra.Order.Group.Multiset
import Mathlib.Data.Fintype.BigOperators
import PudimNetMon.Lib.Run
import PudimNetMon.Lib.Wakeups

/-!
# The pool of threads (`ThreadPool` of `probe_runner.cpp`)

The critical sections of `Submit`, `Stop` and `WorkerLoop` and their notifications as steps of their own, for any
number of callers, with wakeups that no notification has caused. A task runs outside the lock.

- `pool_drains`: tasks start in the order in which they were accepted; no notification is lost; when no thread of the
  pool has a step, every accepted task has run, and after `Stop` every worker has returned.
-/

namespace PudimNetMon.Agent.ThreadPool

/-- Where `WorkerLoop` stands. -/
inductive WorkerAt (α : Type)
  /-- In front of the predicate of its wait, with or without a wait behind it. -/
  | checking
  | asleep
  | running (task : α)
  | returned

variable {α : Type} {k : Nat}

def WorkerAt.stage : WorkerAt α → Stage
  | .checking => .awake
  | .asleep => .asleep
  | .running _ => .busy
  | .returned => .gone

/-- The task in a worker's hands. -/
def WorkerAt.task : WorkerAt α → Multiset α
  | .running task => {task}
  | .checking | .asleep | .returned => 0

structure Pool (α : Type) (k : Nat) where
  tasks : List α := []
  stop : Bool := false
  workers : Fin k → WorkerAt α := fun _ => .checking
  /-- The calls of `Submit`, and of `Stop`, that have left the lock and notify next. -/
  submitting : Nat := 0
  stopping : Nat := 0
  /-- What `Submit` has put into the queue, what workers have taken out of it, and what has run. -/
  accepted : List α := []
  begun : List α := []
  finished : List α := []

inductive Event (α : Type) (k : Nat)
  | submit (task : α)
  /-- `notify_one`, and the worker that it wakes. -/
  | notifyOne (woken : Option (Fin k))
  | requestStop
  | notifyAll
  /-- A wakeup without a notification. -/
  | wake (w : Fin k)
  /-- The critical section of `WorkerLoop`. -/
  | check (w : Fin k)
  | run (w : Fin k)

/-- The steps of the pool's own threads, and of calls that are on their way. -/
def Event.Own : Event α k → Prop
  | .notifyOne _ | .notifyAll | .check _ | .run _ => True
  | .submit _ | .requestStop | .wake _ => False

namespace Pool

def setWorker (s : Pool α k) (w : Fin k) (x : WorkerAt α) : Pool α k :=
  { s with workers := Function.update s.workers w x }

def stage (s : Pool α k) : Fin k → Stage := WorkerAt.stage ∘ s.workers

/-- `notify_one` wakes some sleeper when there is one. -/
def notifyOne (s : Pool α k) : Option (Fin k) → Option (Pool α k)
  | some w => if s.stage w = .asleep then some (s.setWorker w .checking) else none
  | none => if ∀ w, s.stage w ≠ .asleep then some s else none

def step (s : Pool α k) : Event α k → Option (Pool α k)
  | .submit task =>
    if s.stop then some s
    else some { s with tasks := s.tasks ++ [task], submitting := s.submitting + 1, accepted := s.accepted ++ [task] }
  | .notifyOne woken =>
    match s.submitting with
    | 0 => none
    | n + 1 => ({ s with submitting := n } : Pool α k).notifyOne woken
  | .requestStop => some { s with stop := true, stopping := s.stopping + 1 }
  | .notifyAll =>
    match s.stopping with
    | 0 => none
    | n + 1 =>
      some { s with
        stopping := n, workers := fun w => if s.stage w = .asleep then .checking else s.workers w }
  | .wake w => if s.stage w = .asleep then some (s.setWorker w .checking) else none
  | .check w =>
    match s.workers w with
    | .checking =>
      match s.tasks with
      | [] => some (s.setWorker w (if s.stop then .returned else .asleep))
      | task :: rest =>
        some (({ s with tasks := rest, begun := s.begun ++ [task] } : Pool α k).setWorker w (.running task))
    | _ => none
  | .run w =>
    match s.workers w with
    | .running task => some (({ s with finished := s.finished ++ [task] } : Pool α k).setWorker w .checking)
    | _ => none

@[simp] theorem setWorker_stage (s : Pool α k) (w : Fin k) (x : WorkerAt α) :
    (s.setWorker w x).stage = Function.update s.stage w x.stage := Function.comp_update ..

theorem stage_eq_awake {s : Pool α k} {w : Fin k} : s.stage w = .awake ↔ s.workers w = .checking := by
  simp only [stage, Function.comp_apply]
  cases s.workers w <;> simp [WorkerAt.stage]

theorem stage_eq_asleep {s : Pool α k} {w : Fin k} : s.stage w = .asleep ↔ s.workers w = .asleep := by
  simp only [stage, Function.comp_apply]
  cases s.workers w <;> simp [WorkerAt.stage]

variable {s s' : Pool α k}

/-- What holds of the pool between any two steps. -/
structure Inv (s : Pool α k) : Prop where
  fifo : s.accepted = s.begun ++ s.tasks
  ran : (s.begun : Multiset α) = s.finished + weigh WorkerAt.task s.workers
  covered : Covered s.tasks.length s.submitting s.stage
  stopped : s.stop = true → s.stopping = 0 → ∀ w, s.stage w ≠ .asleep
  gone : ∀ w, s.workers w = .returned → s.stop = true ∧ s.tasks = []

/-- A sleeper that wakes up, by the last notification of a call or without one. -/
theorem Inv.wake (h : Inv s) {w : Fin k} (hw : s.stage w = .asleep) {n : Nat} (hn : s.submitting ≤ n + 1) :
    Inv (({ s with submitting := n } : Pool α k).setWorker w .checking) where
  fifo := h.fifo
  ran := by
    have hsum := weigh_update WorkerAt.task s.workers w .checking
    rw [stage_eq_asleep.1 hw] at hsum
    simp only [WorkerAt.task, add_zero] at hsum
    exact h.ran.trans (congrArg _ hsum.symm)
  covered := by
    rw [setWorker_stage]
    exact h.covered.wake hw hn
  stopped := fun hstop hnone v => by
    rw [setWorker_stage]
    exact not_asleep_update (h.stopped hstop hnone) (by simp [WorkerAt.stage]) w v
  gone := fun v hv => by
    simp only [setWorker, Function.update_apply] at hv
    split at hv
    · cases hv
    · exact h.gone v hv

theorem Inv.submit (h : Inv s) {task : α} (hs : s.step (.submit task) = some s') : Inv s' := by
  simp only [step] at hs
  split at hs
  · cases hs
    exact h
  · rename_i hopen
    cases hs
    refine ⟨by simp [h.fifo], h.ran, ?_, fun hstop => absurd hstop hopen, fun w hw => absurd (h.gone w hw).1 hopen⟩
    rw [List.length_append, List.length_singleton]
    exact h.covered.add

theorem Inv.notifyOne (h : Inv s) {woken : Option (Fin k)} (hs : s.step (.notifyOne woken) = some s') : Inv s' := by
  simp only [step] at hs
  split at hs
  · cases hs
  · rename_i n hn
    cases woken with
    | some w =>
      simp only [Pool.notifyOne] at hs
      split at hs
      · rename_i hw
        cases hs
        exact h.wake hw (by omega)
      · cases hs
    | none =>
      simp only [Pool.notifyOne] at hs
      split at hs
      · rename_i hnone
        cases hs
        exact ⟨h.fifo, h.ran, .inl hnone, h.stopped, h.gone⟩
      · cases hs

theorem Inv.notifyAll (h : Inv s) (hs : s.step .notifyAll = some s') : Inv s' := by
  simp only [step] at hs
  split at hs
  · cases hs
  · rename_i n hn
    cases hs
    have hnone : ∀ w, WorkerAt.stage (if s.stage w = .asleep then .checking else s.workers w) ≠ .asleep := by
      intro w
      split
      · simp [WorkerAt.stage]
      · assumption
    refine ⟨h.fifo, h.ran.trans (congrArg _ ?_), .inl hnone, fun _ _ => hnone, fun w hw => ?_⟩
    · unfold weigh
      refine Finset.sum_congr rfl fun w _ => ?_
      dsimp only
      split
      · rename_i hw
        rw [stage_eq_asleep.1 hw]
        rfl
      · rfl
    · dsimp only at hw
      split at hw
      · cases hw
      · exact h.gone w hw

/-- The critical section of `WorkerLoop`: a worker takes the first task, sleeps or returns. -/
theorem Inv.check (h : Inv s) {w : Fin k} (hs : s.step (.check w) = some s') : Inv s' := by
  simp only [step] at hs
  split at hs
  · rename_i hw
    have hawake := stage_eq_awake.2 hw
    split at hs
    · rename_i hempty
      cases hs
      have hsum := weigh_update WorkerAt.task s.workers w (if s.stop = true then .returned else .asleep)
      rw [hw, show (if s.stop = true then .returned else .asleep : WorkerAt α).task = 0 by split <;> rfl] at hsum
      simp only [WorkerAt.task, add_zero] at hsum
      refine ⟨h.fifo, h.ran.trans (congrArg _ hsum.symm), ?_, fun hstop hnone v => ?_, fun v hv => ?_⟩
      · right
        simp [setWorker, hempty]
      · replace hstop : s.stop = true := hstop
        rw [setWorker_stage, hstop]
        exact not_asleep_update (h.stopped hstop hnone) (by simp [WorkerAt.stage]) w v
      · simp only [setWorker, Function.update_apply] at hv
        split at hv
        · split at hv
          · rename_i hstop
            exact ⟨hstop, hempty⟩
          · cases hv
        · exact h.gone v hv
    · rename_i task rest htasks
      cases hs
      have hsum := weigh_update WorkerAt.task s.workers w (.running task)
      rw [hw] at hsum
      simp only [WorkerAt.task, add_zero] at hsum
      refine ⟨?_, ?_, ?_, fun hstop hnone v => ?_, fun v hv => ?_⟩
      · rw [h.fifo, htasks]
        simp [setWorker]
      · have hbegun : ((s.begun ++ [task] : List α) : Multiset α) =
            s.finished + weigh WorkerAt.task (Function.update s.workers w (.running task)) := by
          rw [← Multiset.coe_add, h.ran, add_assoc, hsum]
          rfl
        exact hbegun
      · rw [setWorker_stage]
        have hcovered := h.covered
        rw [htasks, List.length_cons] at hcovered
        exact hcovered.take hawake (by simp [WorkerAt.stage])
      · rw [setWorker_stage]
        exact not_asleep_update (h.stopped hstop hnone) (by simp [WorkerAt.stage]) w v
      · simp only [setWorker, Function.update_apply] at hv
        split at hv
        · cases hv
        · have hgone := (h.gone v hv).2
          rw [htasks] at hgone
          cases hgone
  · cases hs

theorem Inv.run (h : Inv s) {w : Fin k} (hs : s.step (.run w) = some s') : Inv s' := by
  simp only [step] at hs
  split at hs
  · rename_i task hw
    cases hs
    have hsum := weigh_update WorkerAt.task s.workers w .checking
    rw [hw] at hsum
    simp only [WorkerAt.task, add_zero] at hsum
    refine ⟨h.fifo, ?_, ?_, fun hstop hnone v => ?_, fun v hv => ?_⟩
    · have hran : (s.begun : Multiset α) =
          ((s.finished ++ [task] : List α) : Multiset α) +
            weigh WorkerAt.task (Function.update s.workers w .checking) := by
        rw [h.ran, ← hsum, ← Multiset.coe_add, add_assoc, add_comm (weigh _ _)]
        rfl
      exact hran
    · rw [setWorker_stage]
      exact h.covered.move (by rw [ne_eq, stage_eq_awake, hw]; simp) (by simp [WorkerAt.stage])
    · rw [setWorker_stage]
      exact not_asleep_update (h.stopped hstop hnone) (by simp [WorkerAt.stage]) w v
    · simp only [setWorker, Function.update_apply] at hv
      split at hv
      · cases hv
      · exact h.gone v hv
  · cases hs

theorem Inv.step {e : Event α k} (h : Inv s) (hs : s.step e = some s') : Inv s' := by
  cases e with
  | submit task => exact h.submit hs
  | notifyOne woken => exact h.notifyOne hs
  | requestStop =>
    cases hs
    exact ⟨h.fifo, h.ran, h.covered, fun _ hnone => absurd hnone (Nat.succ_ne_zero _),
      fun w hw => ⟨rfl, (h.gone w hw).2⟩⟩
  | notifyAll => exact h.notifyAll hs
  | wake w =>
    simp only [Pool.step] at hs
    split at hs
    · rename_i hw
      cases hs
      exact h.wake hw (Nat.le_succ _)
    · cases hs
  | check w => exact h.check hs
  | run w => exact h.run hs

theorem inv_start : Inv ({ } : Pool α k) where
  fifo := rfl
  ran := by
    unfold weigh
    simp [WorkerAt.task]
  covered := .inl fun _ => by simp [stage, WorkerAt.stage]
  stopped := by simp
  gone := by simp

/-! ## The pool comes to rest -/

/-- The steps in front of a worker before it sleeps or returns. -/
def stepsOf : WorkerAt α → Nat
  | .checking => 1
  | .asleep | .returned => 0
  | .running _ => 2

/-- Bounds the steps that are left. -/
def stepsLeft (s : Pool α k) : Nat :=
  2 * s.tasks.length + 2 * s.submitting + (k + 1) * s.stopping + weigh stepsOf s.workers

/-- `notify_all` costs each sleeper one look at the queue, and the call is worth that much. -/
theorem stepsLeft_notifyAll {n : Nat} (hn : s.stopping = n + 1) (hs : s.step .notifyAll = some s') :
    stepsLeft s' < stepsLeft s := by
  simp only [step, hn] at hs
  cases hs
  have hwoken : weigh stepsOf (fun w => if s.stage w = .asleep then .checking else s.workers w) ≤
      weigh stepsOf s.workers + k := by
    calc weigh stepsOf (fun w => if s.stage w = .asleep then .checking else s.workers w)
        ≤ ∑ w, (stepsOf (s.workers w) + 1) := by
          refine Finset.sum_le_sum fun w _ => ?_
          dsimp only
          split
          · simp [stepsOf]
          · exact Nat.le_succ _
      _ = weigh stepsOf s.workers + k := by
          rw [Finset.sum_add_distrib, ← Finset.card_eq_sum_ones, Finset.card_univ, Fintype.card_fin]
          rfl
  have hcalls : (k + 1) * s.stopping = (k + 1) * n + (k + 1) := by rw [hn, Nat.mul_succ]
  simp only [stepsLeft]
  omega

/-- Each step of the pool itself brings it nearer to its rest. -/
theorem stepsLeft_own {e : Event α k} (he : e.Own) (hs : s.step e = some s') : stepsLeft s' < stepsLeft s := by
  cases e with
  | submit | requestStop | wake => exact absurd he id
  | notifyOne woken =>
    simp only [step] at hs
    split at hs
    · cases hs
    · rename_i n hn
      cases woken with
      | some w =>
        simp only [Pool.notifyOne] at hs
        split at hs
        · rename_i hw
          cases hs
          have hsum := weigh_update stepsOf s.workers w .checking
          rw [stage_eq_asleep.1 hw] at hsum
          simp only [stepsOf] at hsum
          simp only [stepsLeft, setWorker]
          omega
        · cases hs
      | none =>
        simp only [Pool.notifyOne] at hs
        split at hs
        · cases hs
          simp only [stepsLeft]
          omega
        · cases hs
  | notifyAll =>
    cases hn : s.stopping with
    | zero => simp [step, hn] at hs
    | succ n => exact stepsLeft_notifyAll hn hs
  | check w =>
    simp only [step] at hs
    split at hs
    · rename_i hw
      split at hs
      · rename_i hempty
        cases hs
        have hsum := weigh_update stepsOf s.workers w (if s.stop = true then .returned else .asleep)
        rw [hw, show stepsOf (if s.stop = true then .returned else .asleep : WorkerAt α) = 0 by split <;> rfl] at hsum
        simp only [stepsOf] at hsum
        simp only [stepsLeft, setWorker]
        omega
      · rename_i task rest htasks
        cases hs
        have hsum := weigh_update stepsOf s.workers w (.running task)
        rw [hw] at hsum
        simp only [stepsOf] at hsum
        simp only [stepsLeft, setWorker, htasks, List.length_cons]
        omega
    · cases hs
  | run w =>
    simp only [step] at hs
    split at hs
    · rename_i task hw
      cases hs
      have hsum := weigh_update stepsOf s.workers w .checking
      rw [hw] at hsum
      simp only [stepsOf] at hsum
      simp only [stepsLeft, setWorker]
      omega
    · cases hs

/-- No thread of the pool has a step. -/
def Resting (s : Pool α k) : Prop := ∀ e : Event α k, e.Own → s.step e = none

/-- A resting pool has no call on its way, and its workers sleep or have returned. -/
theorem Resting.calls (h : Resting s) : s.submitting = 0 ∧ s.stopping = 0 := by
  constructor
  · by_contra hne
    obtain ⟨n, hn⟩ := Nat.exists_eq_succ_of_ne_zero hne
    by_cases hasleep : ∀ w, s.stage w ≠ .asleep
    · have hnone := h (.notifyOne none) trivial
      simp only [step, hn, Pool.notifyOne, ite_eq_right_iff, reduceCtorEq, imp_false] at hnone
      exact hnone hasleep
    · obtain ⟨w, hw⟩ := not_forall_not.1 hasleep
      have hnone := h (.notifyOne (some w)) trivial
      simp only [step, hn, Pool.notifyOne, ite_eq_right_iff, reduceCtorEq, imp_false] at hnone
      exact hnone hw
  · by_contra hne
    obtain ⟨n, hn⟩ := Nat.exists_eq_succ_of_ne_zero hne
    have hnone := h .notifyAll trivial
    simp [step, hn] at hnone

theorem Resting.worker (h : Resting s) (w : Fin k) : s.workers w = .asleep ∨ s.workers w = .returned := by
  cases hw : s.workers w with
  | checking =>
    have hnone := h (.check w) trivial
    simp only [step, hw] at hnone
    split at hnone <;> cases hnone
  | asleep => exact .inl rfl
  | running task =>
    have hnone := h (.run w) trivial
    simp [step, hw] at hnone
  | returned => exact .inr rfl

/-- With no task in the queue or in the hands of a worker, what was accepted has run. -/
theorem Inv.finished (h : Inv s) (htasks : s.tasks = [])
    (hidle : ∀ w, s.workers w = .asleep ∨ s.workers w = .returned) : s.finished.Perm s.accepted := by
  have hnone : weigh WorkerAt.task s.workers = 0 := by
    refine Finset.sum_eq_zero fun w _ => ?_
    rcases hidle w with hw | hw <;> rw [hw] <;> rfl
  have hran := h.ran
  rw [hnone, add_zero] at hran
  rw [h.fifo, htasks, List.append_nil]
  exact (Multiset.coe_eq_coe.1 hran).symm

structure Orderly (s : Pool α k) : Prop where
  /-- Each accepted task is taken at most once, in the order of acceptance. -/
  fifo : s.accepted = s.begun ++ s.tasks
  /-- With no notification on its way, a queued task waits for a worker that looks for it or for busy workers only. -/
  noLostWakeup : s.submitting = 0 → s.tasks ≠ [] →
    (∃ w, s.workers w = .checking) ∨ ∀ w, ∃ task, s.workers w = .running task
  /-- Without new calls and unasked wakeups the pool comes to rest. -/
  settles : ∀ e s', e.Own → s.step e = some s' → stepsLeft s' < stepsLeft s
  /-- Then everything has run, and the workers have returned if they were asked to. -/
  drained : Resting s → s.finished.Perm s.accepted ∧ (s.stop = true → ∀ w, s.workers w = .returned)
  /-- What `Stop` finds when it has joined them. -/
  joined : (∀ w, s.workers w = .returned) → s.finished.Perm s.accepted

/-- A task in the queue is not forgotten: some worker looks for one, or none of them sleeps. -/
theorem Inv.served (h : Inv s) (hnone : s.submitting = 0) (htasks : s.tasks ≠ []) :
    (∃ w, s.workers w = .checking) ∨ ∀ w, ∃ task, s.workers w = .running task := by
  have hcovered := h.covered
  rw [hnone] at hcovered
  rcases hcovered.served (List.length_pos_iff.2 htasks) with ⟨w, hw⟩ | hawake
  · exact .inl ⟨w, stage_eq_awake.1 hw⟩
  · by_cases hchecking : ∃ w, s.workers w = .checking
    · exact .inl hchecking
    · right
      intro w
      cases hw : s.workers w with
      | checking => exact absurd ⟨w, hw⟩ hchecking
      | asleep => exact absurd (stage_eq_asleep.2 hw) (hawake w)
      | running task => exact ⟨task, rfl⟩
      | returned => exact absurd (h.gone w hw).2 htasks

/-- At rest a sleeping worker would have a task to wake for, so there is none left. -/
theorem Inv.drained (hk : 0 < k) (h : Inv s) (hrest : Resting s) :
    s.finished.Perm s.accepted ∧ (s.stop = true → ∀ w, s.workers w = .returned) := by
  have htasks : s.tasks = [] := by
    by_contra hne
    rcases h.served hrest.calls.1 hne with ⟨w, hw⟩ | hrunning
    · rcases hrest.worker w with hw' | hw' <;> rw [hw] at hw' <;> cases hw'
    · obtain ⟨task, hw⟩ := hrunning ⟨0, hk⟩
      rcases hrest.worker ⟨0, hk⟩ with hw' | hw' <;> rw [hw] at hw' <;> cases hw'
  refine ⟨h.finished htasks hrest.worker, fun hstop w => ?_⟩
  rcases hrest.worker w with hw | hw
  · exact absurd (stage_eq_asleep.2 hw) (h.stopped hstop hrest.calls.2 w)
  · exact hw

theorem Inv.orderly (hk : 0 < k) (h : Inv s) : Orderly s where
  fifo := h.fifo
  noLostWakeup := h.served
  settles := fun _ _ he hs => stepsLeft_own he hs
  drained := h.drained hk
  joined := fun hreturned => h.finished (h.gone ⟨0, hk⟩ (hreturned _)).2 fun w => .inr (hreturned w)

end Pool

/-- **Main.** In every run of a pool of any size. -/
theorem pool_drains (α : Type) (n : Nat) (events : List (Event α (max 1 n))) :
    Always Pool.step Pool.Orderly { } events :=
  always_of_inv (fun _ _ _ h hs => Pool.Inv.step h hs) (fun _ h => h.orderly (by omega)) Pool.inv_start

end PudimNetMon.Agent.ThreadPool
