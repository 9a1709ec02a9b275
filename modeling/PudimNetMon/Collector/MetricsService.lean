import PudimNetMon.Alerting.Manager
import PudimNetMon.Storage.Insert

/-!
# The unary ingest path (`metrics_service.cpp`)

`Ingest.ingestBatch` and `Ingest.sendMetrics` over any database and any Kafka producer: both act on one outside
world `σ`. What a call reads from its surroundings (clocks, the connection) is an `IngestCall`.

- `ingestBatch_direct`: the ingest in direct mode is the insert under the collector's clock;
- `sendMetrics_direct`: which requests are acknowledged in direct mode, and what they do to the database.
-/

namespace PudimNetMon.Collector

open Alerting Storage

/-- Where validated metrics go next. -/
inductive StorageMode
  | direct
  | kafka
  deriving DecidableEq, Repr

/-- The configuration and the counters of the service. -/
structure MetricsServiceImpl where
  mode : StorageMode := .direct
  skewThresholdMs : Int := 5000
  backpressureThresholdMs : Int := 1000
  receivedMetrics : Nat := 0
  rejectedMetrics : Nat := 0
  batchesReceived : Nat := 0
  skewWarnings : Nat := 0
  backpressureSignalsSent : Nat := 0
  deriving DecidableEq, Repr

structure MetricsResponse where
  ack : Bool := false
  acceptedCount : Nat := 0
  rejectedCount : Nat := 0
  statusMessage : String := ""
  deriving DecidableEq, Repr

/-- The service with what it shares, and the world outside the process. -/
structure Ingest (σ : Type) where
  service : MetricsServiceImpl := { }
  storage : TimescaleStorage := { }
  alerts : Option AlertManager := none
  /-- What the alert manager handed to its notifiers. -/
  notified : List (AlertNotification × Notifier) := []
  world : σ

/-- What one call reads: the clock at its start and at the insert, the database connection, the clock of the alert
evaluation and the duration of the ingest. -/
structure IngestCall where
  nowMs : Int := 0
  ingestMs : Int64 := 0
  connected : Bool := true
  alertMs : Int := 0
  elapsedMs : Int := 0
  deriving DecidableEq

variable {σ : Type} (exec : Sql → σ → Bool × σ) (produce : Option (MetricsBatch → σ → Bool × σ))

namespace Ingest

/-- `m_alerts->Evaluate`, when there is an alert manager. -/
def evaluate (c : Ingest σ) (call : IngestCall) (batch : MetricsBatch) : Ingest σ :=
  match c.alerts with
  | some mgr =>
    let (mgr, sent) := mgr.evaluate batch.agentId batch.metrics call.alertMs
    { c with alerts := some mgr, notified := c.notified ++ sent }
  | none => c

/-- The storage half of `IngestBatch`: Kafka, or TimescaleDB under the collector's own time. -/
def store (c : Ingest σ) (call : IngestCall) (batch : MetricsBatch) : Bool × Ingest σ :=
  match c.service.mode with
  | .kafka =>
    match produce with
    | some produce =>
      let (ok, world) := produce batch c.world
      (ok, { c with world := world })
    | none => (false, c)
  | .direct =>
    let (ok, storage, world) :=
      insertMetrics exec call.connected c.storage c.world batch.agentId call.ingestMs batch.metrics
    (ok, { c with storage := storage, world := world })

/-- `IngestBatch`. Alerts are evaluated whatever became of the batch. -/
def ingestBatch (c : Ingest σ) (call : IngestCall) (batch : MetricsBatch) : Bool × Ingest σ :=
  let (ok, c) := c.store exec produce call batch
  (ok, c.evaluate call batch)

/-- What a `SendMetrics` call gives: whether it signalled overload, the response and the collector after it. -/
structure Sent (σ : Type) where
  overloaded : Bool := false
  response : MetricsResponse
  collector : Ingest σ

/-- The counters and the skew warning in front of the ingest. -/
def countReceived (svc : MetricsServiceImpl) (call : IngestCall) (request : MetricsBatch) : MetricsServiceImpl :=
  { svc with
    receivedMetrics := svc.receivedMetrics + request.metrics.length
    skewWarnings := svc.skewWarnings +
      if svc.skewThresholdMs < (call.nowMs - request.timestampUnixMs).natAbs then 1 else 0 }

/-- `SendMetrics`; gRPC passes no null request or response. -/
def sendMetrics (c : Ingest σ) (call : IngestCall) (request : MetricsBatch) : Sent σ :=
  let svc := { c.service with batchesReceived := c.service.batchesReceived + 1 }
  let n := request.metrics.length
  if request.agentId.isEmpty then
    { response := { ack := false, rejectedCount := n, statusMessage := "agent_id is required" }
      collector := { c with service := { svc with rejectedMetrics := svc.rejectedMetrics + n } } }
  else if n = 0 then
    { response := { ack := true, statusMessage := "empty batch accepted" }, collector := { c with service := svc } }
  else
    let svc := countReceived svc call request
    let (ok, c) := ingestBatch exec produce { c with service := svc } call request
    if ok then
      let overloaded := c.service.backpressureThresholdMs < call.elapsedMs
      { overloaded := overloaded
        response := { ack := true, acceptedCount := n, statusMessage := "ok" }
        collector := { c with service := { c.service with
          backpressureSignalsSent := c.service.backpressureSignalsSent + if overloaded then 1 else 0 } } }
    else
      { response := { ack := false, rejectedCount := n, statusMessage :=
          match c.service.mode with
          | .kafka => "kafka produce failed"
          | .direct => "storage write failed" }
        collector := { c with service := { c.service with
          rejectedMetrics := c.service.rejectedMetrics + n } } }

/-! ## What the service keeps -/

variable {exec produce} {c : Ingest σ} {call : IngestCall} {batch : MetricsBatch}

@[simp] theorem evaluate_service : (c.evaluate call batch).service = c.service := by
  unfold evaluate
  split <;> rfl

@[simp] theorem evaluate_storage : (c.evaluate call batch).storage = c.storage := by
  unfold evaluate
  split <;> rfl

@[simp] theorem evaluate_world : (c.evaluate call batch).world = c.world := by
  unfold evaluate
  split <;> rfl

/-- The ingest in direct mode is the insert. -/
theorem ingestBatch_direct (h : c.service.mode = .direct) :
    let inserted := insertMetrics exec call.connected c.storage c.world batch.agentId call.ingestMs batch.metrics
    (c.ingestBatch exec produce call batch).1 = inserted.1 ∧
      (c.ingestBatch exec produce call batch).2.service = c.service ∧
      (c.ingestBatch exec produce call batch).2.storage = inserted.2.1 ∧
      (c.ingestBatch exec produce call batch).2.world = inserted.2.2 := by
  intro inserted
  simp [ingestBatch, store, h, inserted]

/-- **Direct mode.** A request of a named agent with metrics is acknowledged exactly when the insert succeeds, and
acts on the world as the insert does; any other request leaves storage and world alone. -/
theorem sendMetrics_direct (h : c.service.mode = .direct) :
    let inserted := insertMetrics exec call.connected c.storage c.world batch.agentId call.ingestMs batch.metrics
    let sent := c.sendMetrics exec produce call batch
    sent.collector.service.mode = .direct ∧
      if batch.agentId.isEmpty = false ∧ batch.metrics ≠ [] then
        sent.response.ack = inserted.1 ∧ sent.collector.storage = inserted.2.1 ∧ sent.collector.world = inserted.2.2
      else
        sent.response.ack = !batch.agentId.isEmpty ∧ sent.collector.storage = c.storage ∧
          sent.collector.world = c.world := by
  intro inserted sent
  cases hagent : batch.agentId.isEmpty with
  | true => simp [sent, sendMetrics, hagent, h]
  | false =>
    by_cases hms : batch.metrics = []
    · simp [sent, sendMetrics, hagent, hms, h]
    · -- the counters in front of the ingest change neither the mode nor the storage
      let svc := countReceived { c.service with batchesReceived := c.service.batchesReceived + 1 } call batch
      obtain ⟨hok, hsvc, hstorage, hworld⟩ := @ingestBatch_direct σ exec produce { c with service := svc } call batch h
      simp only [sent, sendMetrics, hagent, List.length_eq_zero_iff, hms, Bool.false_eq_true, if_false, ne_eq,
        not_false_eq_true, and_self, if_true]
      split
      · rename_i hyes
        rw [← hok, hyes]
        exact ⟨by rw [hsvc]; exact h, rfl, hstorage, hworld⟩
      · rename_i hno
        rw [← hok]
        exact ⟨by rw [hsvc]; exact h, (Bool.eq_false_iff.2 hno).symm, hstorage, hworld⟩

end Ingest

end PudimNetMon.Collector
