import Mathlib.Data.List.TakeDrop
import PudimNetMon.Collector.MetricsService

/-!
# The streaming ingest path (`metrics_service.cpp`)

`Ingest.streamMetrics` reads a stream metric by metric and ingests it in chunks of `kFlushThreshold`; behind a chunk
that fails the rest of the stream is only counted. A call keeps a record of its `IngestBatch` calls.

- `Rpc.replays`: what the alert manager does in a call of the service is to evaluate the recorded batches in turn;
- `evaluatesAll_iff`: a call evaluates every metric it receives exactly when each chunk that the stream goes on behind
  is written.
-/

namespace PudimNetMon.Collector

open Storage

inductive StatusCode
  | ok | invalidArgument | unavailable
  deriving DecidableEq, Repr

/-- `grpc::Status`. -/
structure Status where
  code : StatusCode := .ok
  message : String := ""
  deriving DecidableEq, Repr

/-- A call of `IngestBatch`: what it read, its batch and what it returned. -/
structure Ingestion where
  call : IngestCall
  batch : MetricsBatch
  ok : Bool
  deriving DecidableEq

/-- What a `StreamMetrics` call gives. -/
structure Streamed (σ : Type) where
  status : Status
  response : MetricsResponse
  collector : Ingest σ
  ingested : List Ingestion := []

/-- The batch and the counts of a `StreamMetrics` call. -/
structure Streaming (σ : Type) where
  collector : Ingest σ
  batch : MetricsBatch
  accepted : Nat := 0
  rejected : Nat := 0
  ingested : List Ingestion := []

def kFlushThreshold : Nat := 500

variable {σ : Type} (exec : Sql → σ → Bool × σ) (produce : Option (MetricsBatch → σ → Bool × σ))

namespace Streaming

/-- The stream before its first metric. -/
def start (c : Ingest σ) (agentId : String) (nowMs : Int) : Streaming σ :=
  { collector := c, batch := { agentId, timestampUnixMs := nowMs } }

/-- A metric that was read. -/
def receive (st : Streaming σ) (m : Metric) : Streaming σ :=
  { st with
    collector := { st.collector with service := { st.collector.service with
      receivedMetrics := st.collector.service.receivedMetrics + 1 } }
    batch := { st.batch with metrics := st.batch.metrics ++ [m] } }

/-- The rest of the stream behind a failed chunk: each metric is read and counted. -/
def drain (st : Streaming σ) (rest : List Metric) : Streaming σ :=
  { st with
    collector := { st.collector with service := { st.collector.service with
      receivedMetrics := st.collector.service.receivedMetrics + rest.length } }
    rejected := st.rejected + rest.length }

/-- `flush`; the `k`-th `IngestBatch` of the call reads `calls k`. -/
def flush (calls : Nat → IngestCall) (st : Streaming σ) : Bool × Streaming σ :=
  let n := st.batch.metrics.length
  if n = 0 then (true, st)
  else
    let call := calls st.ingested.length
    let (ok, c) := st.collector.ingestBatch exec produce call st.batch
    (ok, { collector := c
           batch := { st.batch with metrics := [] }
           accepted := if ok then st.accepted + n else st.accepted
           rejected := if ok then st.rejected else st.rejected + n
           ingested := st.ingested ++ [⟨call, st.batch, ok⟩] })

/-- The loop over the stream, and whether no chunk failed. -/
def readLoop (calls : Nat → IngestCall) : Streaming σ → List Metric → Bool × Streaming σ
  | st, [] => (true, st)
  | st, m :: rest =>
    let st := st.receive m
    if st.batch.metrics.length ≥ kFlushThreshold then
      let (ok, st) := st.flush exec produce calls
      if !ok then (false, st.drain rest) else readLoop calls st rest
    else readLoop calls st rest

/-- The counter and the response at the end of the stream. -/
def respond (st : Streaming σ) (ok : Bool) : Streamed σ :=
  { status := if ok then { } else ⟨.unavailable, "storage write failed"⟩
    response := { ack := ok, acceptedCount := st.accepted, rejectedCount := st.rejected,
                  statusMessage := if ok then "ok" else "storage write failed" }
    collector := { st.collector with service := { st.collector.service with
      rejectedMetrics := st.collector.service.rejectedMetrics + st.rejected } }
    ingested := st.ingested }

end Streaming

namespace Ingest

/-- `StreamMetrics` of the agent in the `x-agent-id` header; `nowMs` is the clock at its start. -/
def streamMetrics (c : Ingest σ) (calls : Nat → IngestCall) (header : Option String) (nowMs : Int)
    (metrics : List Metric) : Streamed σ :=
  let svc := { c.service with batchesReceived := c.service.batchesReceived + 1 }
  let agentId := header.getD ""
  if agentId.isEmpty then
    let drained := metrics.length
    { status := ⟨.invalidArgument, "missing 'x-agent-id' metadata header"⟩
      response := { ack := false, rejectedCount := drained, statusMessage := "missing x-agent-id metadata header" }
      collector := { c with service := { svc with
        receivedMetrics := svc.receivedMetrics + drained, rejectedMetrics := svc.rejectedMetrics + drained } } }
  else
    let (ok, st) :=
      Streaming.readLoop exec produce calls (.start { c with service := svc } agentId nowMs) metrics
    if !ok then st.respond false
    else if st.batch.metrics.length > 0 then
      let (ok, st) := st.flush exec produce calls
      st.respond ok
    else st.respond true

/-- The call of `IngestBatch` that a `SendMetrics` makes. -/
def sendIngested (c : Ingest σ) (call : IngestCall) (request : MetricsBatch) : List Ingestion :=
  let svc := { c.service with batchesReceived := c.service.batchesReceived + 1 }
  if request.agentId.isEmpty then []
  else if request.metrics.length = 0 then []
  else
    let c := { c with service := countReceived svc call request }
    [⟨call, request, (c.ingestBatch exec produce call request).1⟩]

end Ingest

/-- A call of the service. -/
inductive Rpc
  | sendMetrics (call : IngestCall) (request : MetricsBatch)
  | streamMetrics (calls : Nat → IngestCall) (header : Option String) (nowMs : Int) (metrics : List Metric)

namespace Rpc

def agentId : Rpc → String
  | sendMetrics _ request => request.agentId
  | streamMetrics _ header _ _ => header.getD ""

/-- The metrics received in the call. -/
def received : Rpc → List Metric
  | sendMetrics _ request => request.metrics
  | streamMetrics _ _ _ metrics => metrics

/-- The collector behind the call. -/
def after (c : Ingest σ) : Rpc → Ingest σ
  | sendMetrics call request => (c.sendMetrics exec produce call request).collector
  | streamMetrics calls header nowMs metrics => (c.streamMetrics exec produce calls header nowMs metrics).collector

/-- The calls of `IngestBatch`. -/
def ingested (c : Ingest σ) : Rpc → List Ingestion
  | sendMetrics call request => c.sendIngested exec produce call request
  | streamMetrics calls header nowMs metrics => (c.streamMetrics exec produce calls header nowMs metrics).ingested

/-- The batches passed to `Evaluate`: those of the `IngestBatch` calls, when there is an alert manager. -/
def evaluated (c : Ingest σ) (rpc : Rpc) : List MetricsBatch :=
  if c.alerts.isSome then (rpc.ingested exec produce c).map (·.batch) else []

end Rpc

/-! ## The alert manager in a call -/

namespace Ingest

/-- The evaluations of some `IngestBatch` calls, in turn. -/
def replay (c : Ingest σ) (xs : List Ingestion) : Ingest σ := xs.foldl (fun c x => c.evaluate x.call x.batch) c

/-- The alert managers have the same state and have notified the same. -/
def SameAlerts (c c' : Ingest σ) : Prop := c'.alerts = c.alerts ∧ c'.notified = c.notified

variable {exec produce} {c c' : Ingest σ} {call : IngestCall} {batch : MetricsBatch}

theorem replay_append (xs : List Ingestion) (x : Ingestion) :
    c.replay (xs ++ [x]) = (c.replay xs).evaluate x.call x.batch := by
  simp [replay]

theorem SameAlerts.evaluate (h : SameAlerts c c') : SameAlerts (c.evaluate call batch) (c'.evaluate call batch) := by
  obtain ⟨halerts, hnotified⟩ := h
  unfold Ingest.evaluate SameAlerts
  rw [halerts, hnotified]
  cases c.alerts with
  | none => exact ⟨halerts, hnotified⟩
  | some mgr => exact ⟨rfl, rfl⟩

theorem sameAlerts_store : SameAlerts c (c.store exec produce call batch).2 := by
  unfold store
  cases c.service.mode with
  | direct => exact ⟨rfl, rfl⟩
  | kafka => cases produce <;> exact ⟨rfl, rfl⟩

/-- An `IngestBatch` evaluates its batch, whatever the storage answers. -/
theorem SameAlerts.ingestBatch (h : SameAlerts c c') :
    SameAlerts (c.evaluate call batch) (c'.ingestBatch exec produce call batch).2 := by
  have hstored : SameAlerts c (c'.store exec produce call batch).2 :=
    ⟨sameAlerts_store.1.trans h.1, sameAlerts_store.2.trans h.2⟩
  exact hstored.evaluate

end Ingest

namespace Streaming

variable {exec produce} {calls : Nat → IngestCall} {st : Streaming σ}

/-- An invariant of the three things that happen to a stream. -/
theorem readLoop_inv {P : Streaming σ → Prop} (hreceive : ∀ st m, P st → P (st.receive m))
    (hdrain : ∀ st rest, P st → P (st.drain rest)) (hflush : ∀ st, P st → P (st.flush exec produce calls).2)
    (rest : List Metric) (h : P st) : P (readLoop exec produce calls st rest).2 := by
  induction rest generalizing st with
  | nil => exact h
  | cons m rest ih =>
    have hst := hreceive st m h
    unfold readLoop
    dsimp only
    split
    · split
      · exact hdrain _ _ (hflush _ hst)
      · exact ih (hflush _ hst)
    · exact ih hst

/-- The collector's alert manager has evaluated the recorded batches. -/
def Replays (c : Ingest σ) (st : Streaming σ) : Prop := Ingest.SameAlerts (c.replay st.ingested) st.collector

theorem Replays.flush {c : Ingest σ} (h : Replays c st) : Replays c (st.flush exec produce calls).2 := by
  unfold Streaming.flush
  dsimp only
  split
  · exact h
  · show Ingest.SameAlerts (c.replay (st.ingested ++ [_])) _
    rw [Ingest.replay_append]
    exact Ingest.SameAlerts.ingestBatch h

theorem Replays.readLoop {c : Ingest σ} (h : Replays c st) (rest : List Metric) :
    Replays c (readLoop exec produce calls st rest).2 :=
  readLoop_inv (P := Replays c) (fun _ _ h => h) (fun _ _ h => h) (fun _ h => h.flush) rest h

end Streaming

variable {exec produce}

/-- **What `evaluated` stands for.** Behind a call the alert manager has evaluated the batches of the call's
`IngestBatch` calls, in turn, and nothing else. -/
theorem Rpc.replays (c : Ingest σ) (rpc : Rpc) :
    Ingest.SameAlerts (c.replay (rpc.ingested exec produce c)) (rpc.after exec produce c) := by
  cases rpc with
  | sendMetrics call request =>
    unfold Rpc.ingested Rpc.after Ingest.sendIngested Ingest.sendMetrics
    dsimp only
    split
    · exact ⟨rfl, rfl⟩
    split
    · exact ⟨rfl, rfl⟩
    · have hingest : Ingest.SameAlerts (c.evaluate call request) (Ingest.ingestBatch exec produce { c with
          service := Ingest.countReceived { c.service with batchesReceived := c.service.batchesReceived + 1 } call
            request } call request).2 := Ingest.SameAlerts.ingestBatch ⟨rfl, rfl⟩
      split <;> exact hingest
  | streamMetrics calls header nowMs metrics =>
    unfold Rpc.ingested Rpc.after Ingest.streamMetrics
    dsimp only
    split
    · exact ⟨rfl, rfl⟩
    · have hstart : Streaming.Replays c (.start { c with service := { c.service with
          batchesReceived := c.service.batchesReceived + 1 } } (header.getD "") nowMs) := ⟨rfl, rfl⟩
      split
      · exact hstart.readLoop metrics
      split
      · exact (hstart.readLoop metrics).flush
      · exact hstart.readLoop metrics

/-! ## The chunks of a stream -/

namespace Ingest

/-- The writes act alike on both collectors. -/
def SameWrites (c c' : Ingest σ) : Prop :=
  c'.service.mode = c.service.mode ∧ c'.storage = c.storage ∧ c'.world = c.world

variable (exec produce) in
theorem SameWrites.store {c c' : Ingest σ} (h : SameWrites c c') (call : IngestCall) (batch : MetricsBatch) :
    (c'.store exec produce call batch).1 = (c.store exec produce call batch).1 ∧
      SameWrites (c.store exec produce call batch).2 (c'.store exec produce call batch).2 := by
  obtain ⟨hmode, hstorage, hworld⟩ := h
  unfold Ingest.store
  rw [hmode, hstorage, hworld]
  cases hmode' : c.service.mode with
  | direct => exact ⟨rfl, hmode, rfl, rfl⟩
  | kafka =>
    cases produce with
    | none => exact ⟨rfl, hmode, hstorage, hworld⟩
    | some produce => exact ⟨rfl, hmode, rfl, rfl⟩

variable (exec produce) in
/-- The evaluation of a batch does not show in the writes behind it. -/
theorem SameWrites.ingestBatch {c c' : Ingest σ} (h : SameWrites c c') (call : IngestCall) (batch : MetricsBatch) :
    (c'.ingestBatch exec produce call batch).1 = (c.store exec produce call batch).1 ∧
      SameWrites (c.store exec produce call batch).2 (c'.ingestBatch exec produce call batch).2 := by
  obtain ⟨hok, hmode, hstorage, hworld⟩ := h.store exec produce call batch
  refine ⟨hok, ?_, ?_, ?_⟩
  · exact (congrArg (·.mode) evaluate_service).trans hmode
  · exact evaluate_storage.trans hstorage
  · exact evaluate_world.trans hworld

end Ingest

namespace Streaming

variable (exec produce) (c : Ingest σ) (calls : Nat → IngestCall) (agentId : String) (nowMs : Int)
  (metrics : List Metric)

/-- The `k`-th chunk of a stream. -/
def chunk (k : Nat) : MetricsBatch :=
  { agentId, timestampUnixMs := nowMs, metrics := (metrics.drop (kFlushThreshold * k)).take kFlushThreshold }

/-- The collector behind the writes of the first `k` chunks. -/
def behindWrites : Nat → Ingest σ
  | 0 => c
  | k + 1 => ((behindWrites k).store exec produce (calls k) (chunk agentId nowMs metrics k)).2

/-- The write of the `k`-th chunk succeeds. -/
def Written (k : Nat) : Prop :=
  ((behindWrites exec produce c calls agentId nowMs metrics k).store exec produce (calls k)
    (chunk agentId nowMs metrics k)).1 = true

instance (k : Nat) : Decidable (Written exec produce c calls agentId nowMs metrics k) :=
  inferInstanceAs (Decidable (_ = _))

/-- Each chunk that the stream goes on behind is written. -/
def WrittenAhead : Prop :=
  ∀ k, kFlushThreshold * (k + 1) < metrics.length → Written exec produce c calls agentId nowMs metrics k

/-- The loop in front of the rest of a stream: the chunks before it were written and the batch holds less than one. -/
structure Ahead (st : Streaming σ) (rest : List Metric) : Prop where
  writes : Ingest.SameWrites (behindWrites exec produce c calls agentId nowMs metrics st.ingested.length) st.collector
  agent : st.batch.agentId = agentId
  time : st.batch.timestampUnixMs = nowMs
  agents : ∀ x ∈ st.ingested, x.batch.agentId = agentId
  ingested : st.ingested.flatMap (·.batch.metrics) = metrics.take (kFlushThreshold * st.ingested.length)
  left : st.batch.metrics ++ rest = metrics.drop (kFlushThreshold * st.ingested.length)
  written : ∀ k < st.ingested.length, Written exec produce c calls agentId nowMs metrics k

variable {exec produce c calls agentId nowMs metrics} {st : Streaming σ} {rest : List Metric}

theorem Ahead.receive {m : Metric} (h : Ahead exec produce c calls agentId nowMs metrics st (m :: rest)) :
    Ahead exec produce c calls agentId nowMs metrics (st.receive m) rest := by
  refine ⟨h.writes, h.agent, h.time, h.agents, h.ingested, ?_, h.written⟩
  show (st.batch.metrics ++ [m]) ++ rest = metrics.drop (kFlushThreshold * st.ingested.length)
  rw [← h.left, List.append_assoc]
  rfl

/-- A batch that is full is the next chunk. -/
theorem Ahead.full (h : Ahead exec produce c calls agentId nowMs metrics st rest)
    (hfull : st.batch.metrics.length = kFlushThreshold) :
    st.batch = chunk agentId nowMs metrics st.ingested.length := by
  have hmetrics : st.batch.metrics = (metrics.drop (kFlushThreshold * st.ingested.length)).take kFlushThreshold := by
    rw [← h.left, ← hfull, List.take_left]
  unfold chunk
  rw [← h.agent, ← h.time, ← hmetrics]

theorem flush_batch : (st.flush exec produce calls).2.batch.metrics = [] := by
  unfold Streaming.flush
  dsimp only
  split
  · rename_i hzero
    exact List.eq_nil_of_length_eq_zero hzero
  · rfl

/-- A flush records its batch. -/
theorem flush_metrics : (st.flush exec produce calls).2.ingested.flatMap (·.batch.metrics) =
    st.ingested.flatMap (·.batch.metrics) ++ st.batch.metrics := by
  unfold Streaming.flush
  dsimp only
  split
  · rename_i hzero
    rw [List.eq_nil_of_length_eq_zero hzero, List.append_nil]
  · simp

variable (exec produce calls) in
theorem flush_agents (h : ∀ x ∈ st.ingested, x.batch.agentId = agentId) (hbatch : st.batch.agentId = agentId) :
    ∀ x ∈ (st.flush exec produce calls).2.ingested, x.batch.agentId = agentId := by
  unfold Streaming.flush
  dsimp only
  split
  · exact h
  · intro x hx
    rcases List.mem_append.1 hx with hx | hx
    · exact h x hx
    · rw [List.mem_singleton.1 hx]
      exact hbatch

/-- **A full batch** is written as its chunk, and the loop goes on if that succeeds. -/
theorem Ahead.flush (h : Ahead exec produce c calls agentId nowMs metrics st rest)
    (hfull : st.batch.metrics.length = kFlushThreshold) :
    ((st.flush exec produce calls).1 = true ↔ Written exec produce c calls agentId nowMs metrics st.ingested.length) ∧
      (st.flush exec produce calls).2.ingested.flatMap (·.batch.metrics) =
        metrics.take (kFlushThreshold * (st.ingested.length + 1)) ∧
      ((st.flush exec produce calls).1 = true →
        Ahead exec produce c calls agentId nowMs metrics (st.flush exec produce calls).2 rest) := by
  have hne : ¬st.batch.metrics.length = 0 := by
    rw [hfull]
    decide
  have hchunk := h.full hfull
  obtain ⟨hok, hwrites⟩ := h.writes.ingestBatch exec produce (calls st.ingested.length) st.batch
  have hmetrics : (st.flush exec produce calls).2.ingested.flatMap (·.batch.metrics) =
      metrics.take (kFlushThreshold * (st.ingested.length + 1)) := by
    rw [flush_metrics, h.ingested, Nat.mul_succ, List.take_add, ← h.left, ← hfull, List.take_left]
  have hagents := flush_agents exec produce calls h.agents h.agent
  have hwritten : (st.flush exec produce calls).1 = true ↔
      Written exec produce c calls agentId nowMs metrics st.ingested.length := by
    unfold Written
    rw [← hchunk, ← hok]
    simp [Streaming.flush, hne]
  refine ⟨hwritten, hmetrics, fun hyes => ?_⟩
  have hlength : (st.flush exec produce calls).2.ingested.length = st.ingested.length + 1 := by
    simp [Streaming.flush, hne]
  have hcollector : (st.flush exec produce calls).2.collector =
      (st.collector.ingestBatch exec produce (calls st.ingested.length) st.batch).2 := by
    simp [Streaming.flush, hne]
  have hbatch : (st.flush exec produce calls).2.batch = { st.batch with metrics := [] } := by
    simp [Streaming.flush, hne]
  refine ⟨?_, ?_, ?_, hagents, ?_, ?_, fun k hk => ?_⟩
  · rw [hlength, hcollector, behindWrites, ← hchunk]
    exact hwrites
  · rw [hbatch]
    exact h.agent
  · rw [hbatch]
    exact h.time
  · rw [hmetrics, hlength]
  · rw [hbatch, hlength, Nat.mul_succ, ← List.drop_drop, ← h.left, ← hfull, List.drop_left]
    rfl
  · rw [hlength] at hk
    rcases Nat.lt_succ_iff_lt_or_eq.1 hk with hk | rfl
    · exact h.written k hk
    · exact hwritten.1 hyes

/-- The loop ended behind a chunk that was not written, the first one of that kind. -/
def Failed (exec : Sql → σ → Bool × σ) (produce : Option (MetricsBatch → σ → Bool × σ)) (c : Ingest σ)
    (calls : Nat → IngestCall) (agentId : String) (nowMs : Int) (metrics : List Metric) (st : Streaming σ) : Prop :=
  (∀ x ∈ st.ingested, x.batch.agentId = agentId) ∧ ∃ k, kFlushThreshold * (k + 1) ≤ metrics.length ∧
    ¬Written exec produce c calls agentId nowMs metrics k ∧
    (∀ j < k, Written exec produce c calls agentId nowMs metrics j) ∧
    st.ingested.flatMap (·.batch.metrics) = metrics.take (kFlushThreshold * (k + 1))

/-- **The loop.** Either the whole stream was read with every chunk written, or the loop ended at the first chunk that
was not. -/
theorem Ahead.readLoop (h : Ahead exec produce c calls agentId nowMs metrics st rest)
    (hshort : st.batch.metrics.length < kFlushThreshold) :
    let out := readLoop exec produce calls st rest
    (out.1 = true ∧ Ahead exec produce c calls agentId nowMs metrics out.2 [] ∧
        out.2.batch.metrics.length < kFlushThreshold) ∨
      (out.1 = false ∧ Failed exec produce c calls agentId nowMs metrics out.2) := by
  induction rest generalizing st with
  | nil => exact .inl ⟨rfl, h, hshort⟩
  | cons m rest ih =>
    have hst := h.receive
    have hlength : (st.receive m).batch.metrics.length = st.batch.metrics.length + 1 := by simp [Streaming.receive]
    unfold Streaming.readLoop
    dsimp only
    split
    · have hfull : (st.receive m).batch.metrics.length = kFlushThreshold := by omega
      obtain ⟨hwritten, hmetrics, hnext⟩ := hst.flush hfull
      split
      · rename_i hno
        rw [Bool.not_eq_true'] at hno
        have hagents := flush_agents exec produce calls hst.agents hst.agent
        have hleft := congrArg List.length hst.left
        rw [List.length_append, List.length_drop, hfull] at hleft
        refine .inr ⟨rfl, hagents, (st.receive m).ingested.length, ?_, fun hyes => ?_, hst.written, hmetrics⟩
        · rw [Nat.mul_succ]
          have hpos : 0 < kFlushThreshold := by decide
          omega
        · rw [hwritten.2 hyes] at hno
          cases hno
      · rename_i hyes
        rw [Bool.not_eq_true', Bool.not_eq_false] at hyes
        have hempty : ((st.receive m).flush exec produce calls).2.batch.metrics.length < kFlushThreshold := by
          rw [flush_batch]
          decide
        exact ih (hnext hyes) hempty
    · exact ih hst (by omega)

/-- The first failure is of a chunk that the stream goes on behind, unless its chunk is the last of the stream. -/
theorem Failed.take_eq_iff (h : Failed exec produce c calls agentId nowMs metrics st) :
    st.ingested.flatMap (·.batch.metrics) = metrics ↔ WrittenAhead exec produce c calls agentId nowMs metrics := by
  obtain ⟨-, k, hk, hfailed, hwritten, hmetrics⟩ := h
  rw [hmetrics, List.take_eq_self_iff]
  constructor
  · intro hle j hj
    apply hwritten j
    have hlt : kFlushThreshold * (j + 1) < kFlushThreshold * (k + 1) := by omega
    exact Nat.lt_of_succ_lt_succ (Nat.lt_of_mul_lt_mul_left hlt)
  · intro hahead
    by_contra hlt
    exact hfailed (hahead k (by omega))

/-- A stream that was read to its end had each chunk written. -/
theorem Ahead.writtenAhead (h : Ahead exec produce c calls agentId nowMs metrics st [])
    (hshort : st.batch.metrics.length < kFlushThreshold) :
    WrittenAhead exec produce c calls agentId nowMs metrics := by
  intro k hk
  apply h.written k
  have hleft := congrArg List.length h.left
  rw [List.append_nil, List.length_drop] at hleft
  have hlt : kFlushThreshold * (k + 1) < kFlushThreshold * (st.ingested.length + 1) := by
    rw [Nat.mul_succ kFlushThreshold st.ingested.length]
    omega
  exact Nat.lt_of_succ_lt_succ (Nat.lt_of_mul_lt_mul_left hlt)

end Streaming

/-! ## Calls -/

/-- Every metric received in the call is passed to `Evaluate` once and in order, for the agent of the call. -/
def EvaluatesAll (exec : Sql → σ → Bool × σ) (produce : Option (MetricsBatch → σ → Bool × σ)) (c : Ingest σ)
    (rpc : Rpc) : Prop :=
  (∀ batch ∈ rpc.evaluated exec produce c, batch.agentId = rpc.agentId) ∧
    (rpc.evaluated exec produce c).flatMap (·.metrics) = rpc.received

instance (c : Ingest σ) (rpc : Rpc) : Decidable (EvaluatesAll exec produce c rpc) :=
  inferInstanceAs (Decidable (_ ∧ _))

/-- In a stream, each chunk that the stream goes on behind is written. -/
def Rpc.WrittenAhead (exec : Sql → σ → Bool × σ) (produce : Option (MetricsBatch → σ → Bool × σ)) (c : Ingest σ) :
    Rpc → Prop
  | .sendMetrics _ _ => True
  | .streamMetrics calls header nowMs metrics =>
    Streaming.WrittenAhead exec produce c calls (header.getD "") nowMs metrics

variable {c : Ingest σ} {rpc : Rpc}

theorem evaluatesAll_iff_ingested (halerts : c.alerts.isSome) :
    EvaluatesAll exec produce c rpc ↔
      (∀ x ∈ rpc.ingested exec produce c, x.batch.agentId = rpc.agentId) ∧
        (rpc.ingested exec produce c).flatMap (·.batch.metrics) = rpc.received := by
  unfold EvaluatesAll Rpc.evaluated
  rw [if_pos halerts, List.flatMap_map]
  simp

/-- A `SendMetrics` with metrics ingests its request. -/
theorem sendIngested_metrics {call : IngestCall} {request : MetricsBatch} (hagent : request.agentId.isEmpty = false) :
    (∀ x ∈ c.sendIngested exec produce call request, x.batch.agentId = request.agentId) ∧
      (c.sendIngested exec produce call request).flatMap (·.batch.metrics) = request.metrics := by
  unfold Ingest.sendIngested
  dsimp only
  rw [if_neg (by simp [hagent])]
  split
  · rename_i hzero
    exact ⟨nofun, (List.eq_nil_of_length_eq_zero hzero).symm⟩
  · exact ⟨by simp, by simp⟩

variable (exec produce) in
/-- A `StreamMetrics` ingests the whole stream exactly when each chunk that the stream goes on behind is written. -/
theorem streamMetrics_ingested {calls : Nat → IngestCall} {header : Option String} {nowMs : Int}
    {metrics : List Metric} (hagent : (header.getD "").isEmpty = false) :
    let out := c.streamMetrics exec produce calls header nowMs metrics
    (∀ x ∈ out.ingested, x.batch.agentId = header.getD "") ∧
      (out.ingested.flatMap (·.batch.metrics) = metrics ↔
        Streaming.WrittenAhead exec produce c calls (header.getD "") nowMs metrics) := by
  intro out
  let svc := { c.service with batchesReceived := c.service.batchesReceived + 1 }
  have hstart : Streaming.Ahead exec produce c calls (header.getD "") nowMs metrics
      (.start { c with service := svc } (header.getD "") nowMs) metrics :=
    ⟨⟨rfl, rfl, rfl⟩, rfl, rfl, nofun, rfl, rfl, nofun⟩
  have hloop := hstart.readLoop (show ([] : List Metric).length < kFlushThreshold by decide)
  simp only [out, Ingest.streamMetrics, hagent, Bool.false_eq_true, if_false]
  rcases hloop with ⟨hok, hahead, hshort⟩ | ⟨hok, hfailed⟩
  · have hwritten := hahead.writtenAhead hshort
    have hleft := hahead.left
    rw [List.append_nil] at hleft
    rw [if_neg (by simp [svc, hok])]
    split
    · refine ⟨Streaming.flush_agents exec produce calls hahead.agents hahead.agent, iff_of_true ?_ hwritten⟩
      exact Streaming.flush_metrics.trans (by rw [hahead.ingested, hleft, List.take_append_drop])
    · rename_i hempty
      refine ⟨hahead.agents, iff_of_true ?_ hwritten⟩
      have hdrop : metrics.drop (kFlushThreshold * _) = [] :=
        hleft.symm.trans (List.eq_nil_of_length_eq_zero (Nat.eq_zero_of_not_pos hempty))
      exact hahead.ingested.trans ((List.take_eq_self_iff metrics).2 (List.drop_eq_nil_iff.1 hdrop))
  · rw [if_pos (by simp [svc, hok])]
    exact ⟨hfailed.1, hfailed.take_eq_iff⟩

/-- **Alerts and persistence.** A call with an agent id passes every metric it receives to `Evaluate`, once and in
order, exactly when in a stream each chunk that the stream goes on behind is written. -/
theorem evaluatesAll_iff (c : Ingest σ) (rpc : Rpc) (halerts : c.alerts.isSome) (hagent : rpc.agentId.isEmpty = false) :
    EvaluatesAll exec produce c rpc ↔ rpc.WrittenAhead exec produce c := by
  rw [evaluatesAll_iff_ingested halerts]
  cases rpc with
  | sendMetrics call request => exact iff_of_true (sendIngested_metrics hagent) trivial
  | streamMetrics calls header nowMs metrics =>
    obtain ⟨hagents, hmetrics⟩ := streamMetrics_ingested exec produce hagent
    exact ⟨fun h => hmetrics.1 h.2, fun h => ⟨hagents, hmetrics.2 h⟩⟩

/-- In Kafka mode, a stream of 501 metrics whose batches are produced. -/
theorem evaluatesAll_kafka :
    let produce : Option (MetricsBatch → Unit → Bool × Unit) := some fun _ db => (true, db)
    let c : Ingest Unit := { service := { mode := .kafka }, alerts := some { }, world := () }
    let stream : Rpc := .streamMetrics (fun _ => { }) (some "agent-a") 0 (.replicate 501 { target := "dns" })
    EvaluatesAll (fun _ db => (true, db)) produce c stream := by
  intro produce c stream
  refine (evaluatesAll_iff c stream rfl (by decide)).2 fun k hk => ?_
  have hzero : k = 0 := by
    rw [List.length_replicate] at hk
    unfold kFlushThreshold at hk
    omega
  rw [hzero]
  rfl

/-- A stream of 501 metrics while the database is away: the alert manager sees 500 of them. -/
theorem failed_chunk_skips_evaluate :
    let exec : Sql → Unit → Bool × Unit := fun _ db => (false, db)
    let c : Ingest Unit := { alerts := some { }, world := () }
    let stream : Rpc :=
      .streamMetrics (fun _ => { connected := false }) (some "agent-a") 0 (.replicate 501 { target := "dns" })
    (stream.evaluated exec none c).map (fun batch => batch.metrics.length) = [500] ∧
      stream.received.length = 501 ∧ ¬EvaluatesAll exec none c stream := by
  decide +kernel

end PudimNetMon.Collector
