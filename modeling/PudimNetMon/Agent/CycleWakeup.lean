import PudimNetMon.Agent.RunCycle

/-!
# The wake-up of a cycle (`probe_runner.cpp`)

The worker that finishes the last task notifies `RunCycle` without `wait_mu`, and the condition variable is a local of
`RunCycle`. So the notification can come between the test of `remaining` and the wait, and after `RunCycle` has
returned.

- `WakeInv`: at most one worker has still to notify, and then no task remains;
- `wakeup_ordered`: the runs in which neither happens, and what the others come to.
-/

namespace PudimNetMon.Agent

/-- The pool and a call of `RunCycle`. -/
structure CycleCall (workers : Nat) where
  pool : CycleState workers
  returned : Bool := false

inductive CycleCallEvent (workers : Nat)
  | pool (e : CycleEvent workers)
  /-- `RunCycle` returns; `wait_cv` is gone since the slots were collected. -/
  | ret
  deriving DecidableEq

/-- All slots are collected. -/
def CycleAt.isCollected : CycleAt → Bool
  | .collected _ => true
  | .submitting | .checking | .falling | .asleep => false

namespace CycleCall

variable {k : Nat} (tasks : List (List Metric))

def start : CycleCall k := { pool := CycleState.start tasks }

def step (c : CycleCall k) : CycleCallEvent k → Option (CycleCall k)
  | .pool e => (c.pool.step tasks e).map fun pool => { c with pool }
  | .ret => if c.pool.main.isCollected && !c.returned then some { c with returned := true } else none

/-- No task remains, `RunCycle` waits, and nobody has still to notify it. -/
def Stuck (c : CycleCall k) : Prop :=
  c.pool.remaining = 0 ∧ c.pool.main = .asleep ∧ ∀ w, c.pool.workers w ≠ .notifying

instance (c : CycleCall k) : Decidable c.Stuck := inferInstanceAs (Decidable (_ ∧ _ ∧ _))

/-- A worker notifies a `RunCycle` that has returned. -/
def Late (c : CycleCall k) : CycleCallEvent k → Prop
  | .pool (.notify _) => c.returned = true
  | _ => False

instance (c : CycleCall k) (e : CycleCallEvent k) : Decidable (c.Late e) := by
  unfold Late
  split <;> infer_instance

/-- `RunCycle` is never stuck and never notified late. -/
def Completes (c : CycleCall k) (events : List (CycleCallEvent k)) : Prop :=
  Always (step tasks) (fun c => ¬ c.Stuck) c events ∧ Guarded (step tasks) (fun c e => ¬ c.Late e) c events

instance (c : CycleCall k) (events : List (CycleCallEvent k)) : Decidable (c.Completes tasks events) :=
  inferInstanceAs (Decidable (_ ∧ _))

/-- The steps that `wait_mu` around the decrement and the notification would leave: none of both between the test and
the wait, and no test between the two. -/
def Ordered (c : CycleCall k) : CycleCallEvent k → Prop
  | .pool (.notify _) => c.pool.main ≠ .falling
  | .pool .check => c.pool.remaining = 0 → ∀ w, c.pool.workers w ≠ .notifying
  | _ => True

instance (c : CycleCall k) (e : CycleCallEvent k) : Decidable (c.Ordered e) := by
  unfold Ordered
  split <;> infer_instance

end CycleCall

variable {k : Nat} {tasks : List (List Metric)}

namespace CycleState

variable {s s' : CycleState k}

/-! ## Who has still to notify -/

theorem notifying_setWorker {w v : Fin k} {x : PoolWorkerAt} (hx : x ≠ .notifying) (hw : s.workers w ≠ .notifying) :
    (s.setWorker w x).workers v = .notifying ↔ s.workers v = .notifying := by
  by_cases hv : v = w
  · subst hv
    simp [setWorker, hx, hw]
  · simp [setWorker, hv]

/-- At most one worker has still to notify, and then no task remains; none remains behind the slots. -/
structure WakeInv (tasks : List (List Metric)) (s : CycleState k) : Prop where
  pool : PoolInv tasks s
  one : ∀ v w, s.workers v = .notifying → s.workers w = .notifying → v = w
  zero : ∀ w, s.workers w = .notifying → s.remaining = 0
  collected : s.main.isCollected = true → s.remaining = 0

theorem wakeInv_start : WakeInv tasks (start tasks : CycleState k) := by
  constructor
  case pool => exact poolInv_start
  case one => exact nofun
  case zero => exact nofun
  case collected =>
    intro h
    cases tasks with
    | nil => rfl
    | cons t ts => simp [start, CycleAt.isCollected] at h

/-- A worker in a task is counted. -/
theorem remaining_pos {w : Fin k} {i : Nat} {rest : List Metric} (h : PoolInv tasks s)
    (hw : s.workers w = .running i rest) : 0 < s.remaining := by
  have hcard : 0 < s.unfinished.card := Finset.card_pos.2 ⟨i, unfinished_of_running h hw⟩
  have hremaining := h.remaining
  have hle := h.submitted_le
  omega

/-- The workers that have still to notify, the counter and the end of the cycle stay as they are. -/
theorem WakeInv.of_same (h : WakeInv tasks s) (hp : PoolInv tasks s')
    (hworkers : ∀ v, s'.workers v = .notifying ↔ s.workers v = .notifying) (hremaining : s'.remaining = s.remaining)
    (hmain : s'.main.isCollected = true → s.main.isCollected = true ∨ s.remaining = 0) : WakeInv tasks s' := by
  constructor
  case pool => exact hp
  case one => exact fun v w hv hw => h.one v w ((hworkers v).1 hv) ((hworkers w).1 hw)
  case zero => exact fun w hw => hremaining.trans (h.zero w ((hworkers w).1 hw))
  case collected =>
    intro hc
    rw [hremaining]
    rcases hmain hc with hm | hz
    · exact h.collected hm
    · exact hz

/-! ## What each step does to them -/

theorem finish_cases {w : Fin k} (hs : step tasks s (.finish w) = some s') :
    (∃ i, s.workers w = .running i []) ∧ s'.main = s.main ∧ s'.remaining = s.remaining - 1 ∧
      ∀ v, s'.workers v = .notifying ↔ s.workers v = .notifying ∨ v = w ∧ s.remaining = 1 := by
  simp only [step] at hs
  split at hs
  · rename_i i hw
    cases hs
    refine ⟨⟨i, hw⟩, rfl, rfl, fun v => ?_⟩
    by_cases hv : v = w
    · subst hv
      by_cases hone : s.remaining = 1
      · simp [setWorker, hone]
      · simp [setWorker, hone, hw]
    · simp [setWorker, hv]
  · cases hs

theorem notify_cases {w : Fin k} (hs : step tasks s (.notify w) = some s') :
    s.workers w = .notifying ∧ s'.main = (if s.main = .asleep then .checking else s.main) ∧
      s'.remaining = s.remaining ∧ ∀ v, s'.workers v = .notifying ↔ s.workers v = .notifying ∧ v ≠ w := by
  simp only [step] at hs
  split at hs
  · rename_i hw
    cases hs
    refine ⟨hw, rfl, rfl, fun v => ?_⟩
    by_cases hv : v = w
    · subst hv
      simp [setWorker]
    · simp [setWorker, hv]
  · cases hs

/-- The steps of the other kinds leave the counter and the notifications as they are. -/
theorem other_cases {e : CycleEvent k} (hf : ∀ w, e ≠ .finish w) (hn : ∀ w, e ≠ .notify w)
    (hs : step tasks s e = some s') :
    s'.remaining = s.remaining ∧ ∀ v, s'.workers v = .notifying ↔ s.workers v = .notifying := by
  cases e with
  | submit | check | sleep | wake =>
    simp only [step] at hs
    split at hs
    · cases hs
      exact ⟨rfl, fun _ => Iff.rfl⟩
    · cases hs
  | take w =>
    simp only [step] at hs
    split at hs
    · rename_i hw _
      cases hs
      exact ⟨rfl, fun v => notifying_setWorker (by simp) (by simp [hw])⟩
    · cases hs
  | probe w =>
    simp only [step] at hs
    split at hs
    · rename_i hw
      cases hs
      exact ⟨rfl, fun v => notifying_setWorker (by simp) (by simp [hw])⟩
    · cases hs
  | finish w => exact absurd rfl (hf w)
  | notify w => exact absurd rfl (hn w)

/-- Where the steps of the other kinds take `RunCycle`. -/
theorem main_cases {e : CycleEvent k} (hf : ∀ w, e ≠ .finish w) (hn : ∀ w, e ≠ .notify w)
    (hs : step tasks s e = some s') :
    s'.main = s.main ∨ s'.main = .submitting ∨ s'.main = .checking ∨
      (e = .check ∧ s.remaining = 0 ∧ s'.main.isCollected = true) ∨
      (e = .check ∧ s.remaining ≠ 0 ∧ s'.main = .falling) ∨ (s.main = .falling ∧ s'.main = .asleep) := by
  cases e with
  | submit =>
    simp only [step] at hs
    split at hs
    · cases hs
      dsimp only
      split
      · exact .inr (.inr (.inl rfl))
      · exact .inr (.inl rfl)
    · cases hs
  | take w | probe w =>
    simp only [step] at hs
    split at hs
    · cases hs
      exact .inl rfl
    · cases hs
  | finish w => exact absurd rfl (hf w)
  | notify w => exact absurd rfl (hn w)
  | check =>
    simp only [step] at hs
    split at hs
    · cases hs
      by_cases hz : s.remaining = 0
      · exact .inr (.inr (.inr (.inl ⟨rfl, hz, by rw [if_pos hz, CycleAt.isCollected]⟩)))
      · exact .inr (.inr (.inr (.inr (.inl ⟨rfl, hz, if_neg hz⟩))))
    · cases hs
  | sleep =>
    simp only [step] at hs
    split at hs
    · rename_i hmain
      cases hs
      exact .inr (.inr (.inr (.inr (.inr ⟨hmain, rfl⟩))))
    · cases hs
  | wake =>
    simp only [step] at hs
    split at hs
    · cases hs
      exact .inr (.inr (.inl rfl))
    · cases hs

/-- All slots are collected by a test that finds no task. -/
theorem collected_cases {e : CycleEvent k} (hf : ∀ w, e ≠ .finish w) (hn : ∀ w, e ≠ .notify w)
    (hs : step tasks s e = some s') (hc : s'.main.isCollected = true) :
    s.main.isCollected = true ∨ (e = .check ∧ s.remaining = 0) := by
  obtain hm | hm | hm | ⟨he, hz, -⟩ | ⟨-, -, hm⟩ | ⟨-, hm⟩ := main_cases hf hn hs
  · exact .inl (hm ▸ hc)
  · rw [hm] at hc
    cases hc
  · rw [hm] at hc
    cases hc
  · exact .inr ⟨he, hz⟩
  · rw [hm] at hc
    cases hc
  · rw [hm] at hc
    cases hc

/-- Behind the slots `RunCycle` does not come back to the pool. -/
theorem main_of_collected {e : CycleEvent k} (hs : step tasks s e = some s') (hc : s.main.isCollected = true) :
    s'.main = s.main := by
  cases e with
  | submit | check | sleep | wake =>
    simp only [step] at hs
    split at hs
    · rename_i hmain
      rw [hmain] at hc
      cases hc
    · cases hs
  | take w | probe w =>
    simp only [step] at hs
    split at hs
    · cases hs
      rfl
    · cases hs
  | finish w => exact (finish_cases hs).2.1
  | notify w =>
    obtain ⟨-, hmain, -⟩ := notify_cases hs
    rw [hmain]
    split
    · rename_i hasleep
      rw [hasleep] at hc
      cases hc
    · rfl

theorem wakeInv_step (s : CycleState k) (e : CycleEvent k) (s' : CycleState k) (h : WakeInv tasks s)
    (hs : step tasks s e = some s') : WakeInv tasks s' := by
  have hp := poolInv_step s e s' h.pool hs
  by_cases hf : ∃ w, e = .finish w
  · obtain ⟨w, rfl⟩ := hf
    obtain ⟨⟨i, hw⟩, hmain, hremaining, hworkers⟩ := finish_cases hs
    have hpos := remaining_pos h.pool hw
    -- a task remained, so nobody had to notify
    have hnone : ∀ v, s.workers v ≠ .notifying := fun v hv => hpos.ne' (h.zero v hv)
    constructor
    case pool => exact hp
    case one =>
      intro v u hv hu
      rcases (hworkers v).1 hv with hv | ⟨rfl, -⟩
      · exact absurd hv (hnone v)
      rcases (hworkers u).1 hu with hu | ⟨rfl, -⟩
      · exact absurd hu (hnone u)
      rfl
    case zero =>
      intro v hv
      rcases (hworkers v).1 hv with hv | ⟨-, hone⟩
      · exact absurd hv (hnone v)
      · rw [hremaining, hone]
    case collected =>
      intro hc
      rw [hmain] at hc
      exact absurd (h.collected hc) hpos.ne'
  by_cases hn : ∃ w, e = .notify w
  · obtain ⟨w, rfl⟩ := hn
    obtain ⟨hw, hmain, hremaining, hworkers⟩ := notify_cases hs
    constructor
    case pool => exact hp
    case one => exact fun v u hv hu => h.one v u ((hworkers v).1 hv).1 ((hworkers u).1 hu).1
    case zero => exact fun v hv => hremaining.trans (h.zero v ((hworkers v).1 hv).1)
    case collected => exact fun _ => hremaining.trans (h.zero w hw)
  have hf' : ∀ w, e ≠ .finish w := fun w he => hf ⟨w, he⟩
  have hn' : ∀ w, e ≠ .notify w := fun w he => hn ⟨w, he⟩
  obtain ⟨hremaining, hworkers⟩ := other_cases hf' hn' hs
  exact h.of_same hp hworkers hremaining fun hc => (collected_cases hf' hn' hs hc).imp_right And.right

end CycleState

namespace CycleCall

variable {c c' : CycleCall k}

/-! ## All runs -/

/-- `RunCycle` returns behind the slots. -/
structure CallInv (tasks : List (List Metric)) (c : CycleCall k) : Prop where
  pool : CycleState.WakeInv tasks c.pool
  returned : c.returned = true → c.pool.main.isCollected = true

theorem callInv_start : CallInv tasks (start tasks : CycleCall k) := ⟨CycleState.wakeInv_start, nofun⟩

theorem callInv_step (c : CycleCall k) (e : CycleCallEvent k) (c' : CycleCall k) (h : CallInv tasks c)
    (hs : c.step tasks e = some c') : CallInv tasks c' := by
  cases e with
  | pool e =>
    obtain ⟨s', hpool, rfl⟩ := Option.map_eq_some_iff.1 hs
    refine ⟨CycleState.wakeInv_step _ _ _ h.pool hpool, fun hr => ?_⟩
    have hc := h.returned hr
    dsimp only
    rw [CycleState.main_of_collected hpool hc]
    exact hc
  | ret =>
    simp only [step] at hs
    split at hs
    · rename_i hmain
      cases hs
      exact ⟨h.pool, fun _ => (Bool.and_eq_true_iff.1 hmain).1⟩
    · cases hs

/-! ## The ordered runs -/

/-- While `RunCycle` waits or is about to, a task remains or its notification is still to come; none is to come once it
has left the wait for good. -/
structure Woken (tasks : List (List Metric)) (c : CycleCall k) : Prop extends CallInv tasks c where
  pending : c.pool.main = .falling ∨ c.pool.main = .asleep → c.pool.remaining = 0 →
    ∃ w, c.pool.workers w = .notifying
  quiet : c.pool.main.isCollected = true → ∀ w, c.pool.workers w ≠ .notifying

theorem woken_start : Woken tasks (start tasks : CycleCall k) := by
  refine ⟨callInv_start, fun h => ?_, fun _ _ => nofun⟩
  cases tasks <;> simp [start, CycleState.start] at h

theorem woken_finish {w : Fin k} (h : Woken tasks c) {s' : CycleState k} (hinv : CallInv tasks { c with pool := s' })
    (hs : c.pool.step tasks (.finish w) = some s') : Woken tasks { c with pool := s' } := by
  obtain ⟨⟨i, hw⟩, hmain, hremaining, hworkers⟩ := CycleState.finish_cases hs
  have hpos := CycleState.remaining_pos h.pool.pool hw
  refine ⟨hinv, fun _ hzero => ⟨w, (hworkers w).2 (.inr ⟨rfl, ?_⟩)⟩, fun hc => ?_⟩
  · dsimp only at hzero
    omega
  · dsimp only at hc
    rw [hmain] at hc
    exact absurd (h.pool.collected hc) hpos.ne'

theorem woken_notify {w : Fin k} (h : Woken tasks c) {s' : CycleState k} (hinv : CallInv tasks { c with pool := s' })
    (hfalling : c.pool.main ≠ .falling) (hs : c.pool.step tasks (.notify w) = some s') :
    Woken tasks { c with pool := s' } := by
  obtain ⟨hw, hmain, hremaining, hworkers⟩ := CycleState.notify_cases hs
  refine ⟨hinv, fun hm => ?_, fun _ v hv => ?_⟩
  · dsimp only at hm
    rw [hmain] at hm
    split at hm
    · simp at hm
    · rename_i hawake
      exact absurd hm (not_or.2 ⟨hfalling, hawake⟩)
  · obtain ⟨hv, hne⟩ := (hworkers v).1 hv
    exact hne (h.pool.one v w hv hw)

theorem woken_other {e : CycleEvent k} (h : Woken tasks c) {s' : CycleState k}
    (hinv : CallInv tasks { c with pool := s' }) (hf : ∀ w, e ≠ .finish w) (hn : ∀ w, e ≠ .notify w)
    (hg : c.Ordered (.pool e)) (hs : c.pool.step tasks e = some s') : Woken tasks { c with pool := s' } := by
  obtain ⟨hremaining, hworkers⟩ := CycleState.other_cases hf hn hs
  refine ⟨hinv, fun hm hzero => ?_, fun hc w hw => ?_⟩
  · dsimp only at hm hzero
    rw [hremaining] at hzero
    have hbefore : ∃ w, c.pool.workers w = .notifying := by
      obtain hm' | hm' | hm' | ⟨-, -, hm'⟩ | ⟨-, hz, -⟩ | ⟨hfalling, -⟩ := CycleState.main_cases hf hn hs
      · exact h.pending (hm' ▸ hm) hzero
      · simp [hm'] at hm
      · simp [hm'] at hm
      · rcases hm with hm | hm <;> rw [hm] at hm' <;> cases hm'
      · exact absurd hzero hz
      · exact h.pending (.inl hfalling) hzero
    obtain ⟨w, hw⟩ := hbefore
    exact ⟨w, (hworkers w).2 hw⟩
  · have hw := (hworkers w).1 hw
    rcases CycleState.collected_cases hf hn hs hc with hc | ⟨rfl, hz⟩
    · exact h.quiet hc w hw
    · exact hg hz w hw

theorem woken_step (c : CycleCall k) (e : CycleCallEvent k) (c' : CycleCall k) (h : Woken tasks c) (hg : c.Ordered e)
    (hs : c.step tasks e = some c') : Woken tasks c' := by
  have hinv := callInv_step c e c' h.toCallInv hs
  cases e with
  | pool e =>
    obtain ⟨s', hpool, rfl⟩ := Option.map_eq_some_iff.1 hs
    by_cases hf : ∃ w, e = .finish w
    · obtain ⟨w, rfl⟩ := hf
      exact woken_finish h hinv hpool
    by_cases hn : ∃ w, e = .notify w
    · obtain ⟨w, rfl⟩ := hn
      exact woken_notify h hinv hg hpool
    exact woken_other h hinv (fun w he => hf ⟨w, he⟩) (fun w he => hn ⟨w, he⟩) hg hpool
  | ret =>
    simp only [step] at hs
    split at hs
    · cases hs
      exact ⟨hinv, h.pending, h.quiet⟩
    · cases hs

theorem not_stuck (h : Woken tasks c) : ¬ c.Stuck := by
  rintro ⟨hzero, hasleep, hnone⟩
  obtain ⟨w, hw⟩ := h.pending (.inr hasleep) hzero
  exact hnone w hw

theorem not_late (h : Woken tasks c) {e : CycleCallEvent k} (hs : c.step tasks e = some c') : ¬ c.Late e := by
  intro hlate
  unfold Late at hlate
  split at hlate
  · rename_i w
    obtain ⟨s', hpool, rfl⟩ := Option.map_eq_some_iff.1 hs
    exact h.quiet (h.returned hlate) w (CycleState.notify_cases hpool).1
  · exact hlate

/-! ## The other runs -/

/-- A notification between the test and the wait leaves `RunCycle` stuck. -/
theorem stuck_of_notify {w : Fin k} (h : CallInv tasks c) (hfalling : c.pool.main = .falling)
    (hs : c.step tasks (.pool (.notify w)) = some c') :
    ∃ d, c'.step tasks (.pool .sleep) = some d ∧ d.Stuck := by
  obtain ⟨s', hpool, rfl⟩ := Option.map_eq_some_iff.1 hs
  obtain ⟨hw, hmain, hremaining, hworkers⟩ := CycleState.notify_cases hpool
  rw [hfalling, if_neg (by decide)] at hmain
  refine ⟨{ pool := { s' with main := .asleep }, returned := c.returned },
    by simp only [step, CycleState.step, hmain, if_true, Option.map_some], ?_, rfl, fun v hv => ?_⟩
  · exact hremaining.trans (h.pool.zero w hw)
  · obtain ⟨hv, hne⟩ := (hworkers v).1 hv
    exact hne (h.pool.one v w hv hw)

/-- A test between the decrement and the notification lets `RunCycle` return in front of it. -/
theorem late_of_check {w : Fin k} (h : CallInv tasks c) (hzero : c.pool.remaining = 0)
    (hw : c.pool.workers w = .notifying) (hs : c.step tasks (.pool .check) = some c') :
    ∃ d d', c'.step tasks .ret = some d ∧ d.step tasks (.pool (.notify w)) = some d' ∧ d.Late (.pool (.notify w)) := by
  obtain ⟨s', hpool, rfl⟩ := Option.map_eq_some_iff.1 hs
  simp only [CycleState.step] at hpool
  split at hpool
  · rename_i hmain
    cases hpool
    let metrics := (List.range tasks.length).flatMap c.pool.slots
    have hopen : c.returned = false := by
      rw [← Bool.not_eq_true]
      intro hr
      have hc := h.returned hr
      rw [hmain] at hc
      cases hc
    have hret : step tasks { c with pool := { c.pool with main := .collected metrics } } .ret =
        some { pool := { c.pool with main := .collected metrics }, returned := true } := by
      simp only [step, hopen, CycleAt.isCollected]
      rfl
    exact ⟨_, _, hret, by simp only [step, CycleState.step, hw]; rfl, rfl⟩
  · cases hpool

end CycleCall

/-- **Woken in order.** For every list of tasks, every pool and every interleaving: a run whose steps are ordered is
never stuck and no worker notifies it late, and a run that comes to a step out of order can come to one of the two. -/
theorem wakeup_ordered (tasks : List (List Metric)) (k : Nat) (events : List (CycleCallEvent k)) :
    (Guarded (CycleCall.step tasks) CycleCall.Ordered (CycleCall.start tasks) events →
      (CycleCall.start tasks).Completes tasks events) ∧
    ∀ c e c', runEvents (CycleCall.step tasks) (CycleCall.start tasks) events = some c →
      c.step tasks e = some c' → ¬ c.Ordered e →
      ∃ more, ¬ (CycleCall.start tasks).Completes tasks (events ++ e :: more) := by
  constructor
  · intro h
    exact ⟨always_of_guarded CycleCall.woken_step (fun _ => CycleCall.not_stuck) CycleCall.woken_start h,
      guarded_of_guarded CycleCall.woken_step (fun _ _ _ hc _ => CycleCall.not_late hc) CycleCall.woken_start h⟩
  · intro c e c' hrun hs hout
    have hinv : CycleCall.CallInv tasks c :=
      (always_of_inv CycleCall.callInv_step (fun _ => id) CycleCall.callInv_start).last hrun
    have hrun' := (runEvents_concat hrun e).trans hs
    unfold CycleCall.Ordered at hout
    split at hout
    · obtain ⟨d, hsleep, hstuck⟩ := CycleCall.stuck_of_notify hinv (not_not.1 hout) hs
      refine ⟨[.pool .sleep], fun h => ?_⟩
      rw [List.append_cons] at h
      exact h.1.last ((runEvents_concat hrun' _).trans hsleep) hstuck
    · push Not at hout
      obtain ⟨hzero, w, hw⟩ := hout
      obtain ⟨d, d', hret, hnotify, hlate⟩ := CycleCall.late_of_check hinv hzero hw hs
      refine ⟨[.ret, .pool (.notify w)], fun h => ?_⟩
      rw [List.append_cons, List.append_cons] at h
      exact h.2.last ((runEvents_concat hrun' _).trans hret) hnotify hlate
    · exact absurd trivial hout

/-- One task: its worker notifies between the test and the wait, or behind the return. -/
theorem wakeup_lost :
    let tasks := cycleTasks echoProbes { tcpTargets := ["10.0.0.1:443"], tcpRetransmitCheck := false }
    let w : Fin (poolSize 1) := ⟨0, by decide⟩
    let lost : List (CycleCallEvent (poolSize 1)) := [.pool .submit, .pool (.take w), .pool (.probe w), .pool .check,
      .pool (.finish w), .pool (.notify w), .pool .sleep]
    let late : List (CycleCallEvent (poolSize 1)) := [.pool .submit, .pool (.take w), .pool (.probe w),
      .pool (.finish w), .pool .check, .ret, .pool (.notify w)]
    ¬ (CycleCall.start tasks).Completes tasks lost ∧ ¬ (CycleCall.start tasks).Completes tasks late := by
  decide

end PudimNetMon.Agent
