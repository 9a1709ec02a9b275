import PudimNetMon.Metric

/-!
# `ProbeRunner` (`probe_runner.cpp`)

The queue between the probe thread and the main loop: a cycle appends its batch and evicts the oldest one when the
queue is full, and `Drain` takes batches from the front. Each batch is numbered as it is produced, so that it can be
followed from here on.
-/

namespace PudimNetMon.Agent

/-- A batch with its number. -/
structure Tracked where
  id : Nat
  batch : MetricsBatch
  deriving DecidableEq

def kMaxQueuedBatches : Nat := 50

structure ProbeRunner where
  agentId : String
  seq : UInt64 := 0
  queue : List Tracked := []
  /-- Every batch built so far. -/
  produced : List Tracked := []

/-- `m.set_seq(seq_.fetch_add(1))` for each metric. -/
def setSeqs : UInt64 → List Metric → UInt64 × List Metric
  | seq, [] => (seq, [])
  | seq, m :: ms =>
    let (next, rest) := setSeqs (seq + 1) ms
    (next, { m with seq := seq.toNat } :: rest)

/-- The loop of `Drain`: the batches taken and the queue left. -/
def drainLoop : Nat → List Tracked → List Tracked × List Tracked
  | 0, queue => ([], queue)
  | _ + 1, [] => ([], [])
  | limit + 1, t :: queue =>
    let (out, rest) := drainLoop limit queue
    (t :: out, rest)

namespace ProbeRunner

/-- The end of a cycle of `RunLoop`, with the metrics `RunCycle` has collected. -/
def finishCycle (r : ProbeRunner) (timestampUnixMs : Int) (metrics : List Metric) : ProbeRunner :=
  let (seq, metrics) := setSeqs r.seq metrics
  let t : Tracked := ⟨r.produced.length, { agentId := r.agentId, timestampUnixMs, metrics }⟩
  let queue := if r.queue.length ≥ kMaxQueuedBatches then r.queue.tail else r.queue
  { r with seq, queue := queue ++ [t], produced := r.produced ++ [t] }

def drain (r : ProbeRunner) (limit : Nat) : List Tracked × ProbeRunner :=
  let (out, queue) := drainLoop limit r.queue
  (out, { r with queue })

end ProbeRunner

/-- A cycle produces one batch, with the next number, and queues it. -/
theorem ProbeRunner.finishCycle_spec (r : ProbeRunner) (timestampUnixMs : Int) (metrics : List Metric) :
    ∃ t : Tracked, t.id = r.produced.length ∧
      (r.finishCycle timestampUnixMs metrics).produced = r.produced ++ [t] ∧
      (r.finishCycle timestampUnixMs metrics).queue =
        (if r.queue.length < kMaxQueuedBatches then r.queue else r.queue.tail) ++ [t] := by
  refine ⟨_, rfl, rfl, ?_⟩
  by_cases hfull : r.queue.length < kMaxQueuedBatches
  · rw [if_pos hfull, ProbeRunner.finishCycle, if_neg (Nat.not_le.2 hfull)]
  · rw [if_neg hfull, ProbeRunner.finishCycle, if_pos (Nat.not_lt.1 hfull)]

theorem drainLoop_eq (limit : Nat) (queue : List Tracked) :
    drainLoop limit queue = (queue.take limit, queue.drop limit) := by
  induction limit generalizing queue with
  | zero => rfl
  | succ limit ih =>
    cases queue with
    | nil => rfl
    | cons t queue => simp [drainLoop, ih queue]

theorem ProbeRunner.drain_eq (r : ProbeRunner) (limit : Nat) :
    r.drain limit = (r.queue.take limit, { r with queue := r.queue.drop limit }) := by
  simp only [ProbeRunner.drain, drainLoop_eq]

end PudimNetMon.Agent
