import Mathlib.Data.List.Perm.Subperm
import PudimNetMon.Agent.Conservation
import PudimNetMon.Collector.StreamMetrics
import PudimNetMon.Lib.Run

/-!
# The collector in Kafka mode (`producer.cpp`, `metrics_service.cpp`)

`Produce` puts a message into the queue of `librdkafka`; the callback counts what became of it when a later `Produce`
polls. The library and the cluster are no part of the repository: `Rdkafka` is what the collector sees of them, and
`Documented` says what is promised of an idempotent producer.

- `producer_accounts`: what the counters of a process are, and that a partition has the batches of an agent in the order
  in which they were accepted; once the successes have caught up with `m_produced_total`, it has all of them.
-/

namespace PudimNetMon.Kafka

open Collector Storage

/-- A message: the agent's id is its key, the batch its payload. -/
structure Record (Payload : Type) where
  key : String
  value : Payload
  deriving DecidableEq, Repr

/-- A delivery report: its message, and whether `err()` is none. -/
structure Report (Payload : Type) where
  record : Record Payload
  delivered : Bool
  deriving DecidableEq, Repr

/-- A producer of `librdkafka` with the cluster, in a state of type `κ`. An `ω` is what may happen in a call. -/
structure Rdkafka (Payload κ ω : Type) where
  partitionOf : String → Nat
  create : ω → κ → κ
  /-- Whether the message was accepted. -/
  produce : ω → Record Payload → κ → Bool × κ
  /-- The reports that the callback is called with. -/
  poll : ω → κ → List (Report Payload) × κ
  /-- What goes on between the calls. -/
  work : ω → κ → κ
  /-- What this producer has written to a partition. -/
  topic : κ → Nat → List (Record Payload)

/-- What passes between the collector and its producer. -/
inductive Happening (Payload : Type)
  | produced (m : Record Payload) (accepted : Bool)
  | reported (r : Report Payload)
  deriving DecidableEq, Repr

section

variable {Payload κ ω : Type}

/-- The accepted messages. -/
def acceptedOf (log : List (Happening Payload)) : List (Record Payload) :=
  log.filterMap fun
    | .produced m true => some m
    | _ => none

def reportsOf (log : List (Happening Payload)) : List (Report Payload) :=
  log.filterMap fun
    | .reported r => some r
    | _ => none

/-- The number of refused messages. -/
def refusedIn (log : List (Happening Payload)) : Nat :=
  log.countP fun
    | .produced _ false => true
    | _ => false

/-- The messages that were reported delivered. -/
def deliveredOf (log : List (Happening Payload)) : List (Record Payload) :=
  ((reportsOf log).filter (·.delivered)).map (·.record)

namespace Rdkafka

variable (lib : Rdkafka Payload κ ω)

/-- The states of a producer, each with what happened since it was created. -/
inductive History (cluster : κ) : κ → List (Happening Payload) → Prop
  | create (w : ω) : History cluster (lib.create w cluster) []
  | again (w : ω) {k : κ} {log : List (Happening Payload)} (h : History cluster k log) :
    History cluster (lib.create w k) []
  | produce (w : ω) (m : Record Payload) {k : κ} {log : List (Happening Payload)} (h : History cluster k log) :
    History cluster (lib.produce w m k).2 (log ++ [.produced m (lib.produce w m k).1])
  | poll (w : ω) {k : κ} {log : List (Happening Payload)} (h : History cluster k log) :
    History cluster (lib.poll w k).2 (log ++ (lib.poll w k).1.map .reported)
  | work (w : ω) {k : κ} {log : List (Happening Payload)} (h : History cluster k log) :
    History cluster (lib.work w k) log

variable [DecidableEq Payload]

/-- What the library promises with `enable.idempotence`. -/
structure Documented (cluster : κ) : Prop where
  /-- The callback is called once for each accepted message. -/
  once : ∀ k log, lib.History cluster k log → ∀ m,
    ((reportsOf log).map (·.record)).count m ≤ (acceptedOf log).count m
  /-- No message is written twice, and a partition has its messages in the order of the calls. -/
  ordered : ∀ k log, lib.History cluster k log → ∀ partition,
    (lib.topic k partition).Sublist ((acceptedOf log).filter fun m => lib.partitionOf m.key = partition)
  /-- What is reported delivered has been written. -/
  written : ∀ k log, lib.History cluster k log → ∀ m,
    (deliveredOf log).count m ≤ (lib.topic k (lib.partitionOf m.key)).count m

end Rdkafka

/-- `KafkaProducer`. -/
structure KafkaProducer (Payload κ : Type) where
  connected : Bool := true
  producedTotal : Nat := 0
  deliverySuccesses : Nat := 0
  deliveryFailures : Nat := 0
  handle : κ
  /-- What happened since the producer was created. -/
  log : List (Happening Payload) := []

/-- What happens in the two calls of a `Produce`. -/
structure ProduceAnswers (ω : Type) where
  produce : ω
  poll : ω

namespace KafkaProducer

variable (lib : Rdkafka Payload κ ω) (serialize : MetricsBatch → Option Payload)

/-- `dr_cb` -/
def drCb (k : KafkaProducer Payload κ) (r : Report Payload) : KafkaProducer Payload κ :=
  if r.delivered then { k with deliverySuccesses := k.deliverySuccesses + 1 }
  else { k with deliveryFailures := k.deliveryFailures + 1 }

def poll (w : ω) (k : KafkaProducer Payload κ) : KafkaProducer Payload κ :=
  let (reports, handle) := lib.poll w k.handle
  reports.foldl drCb { k with handle, log := k.log ++ reports.map .reported }

def produce (a : ProduceAnswers ω) (batch : MetricsBatch) (k : KafkaProducer Payload κ) :
    Bool × KafkaProducer Payload κ :=
  if !k.connected then (false, k)
  else
    match serialize batch with
    | none => (false, k)
    | some value =>
      let (accepted, handle) := lib.produce a.produce ⟨batch.agentId, value⟩ k.handle
      let k := { k with handle, log := k.log ++ [Happening.produced ⟨batch.agentId, value⟩ accepted] }
      if !accepted then (false, { k with deliveryFailures := k.deliveryFailures + 1 })
      else (true, { k with producedTotal := k.producedTotal + 1 }.poll lib a.poll)

/-- `Flush`, which calls the callback as a poll does. -/
def flush (w : ω) (k : KafkaProducer Payload κ) : KafkaProducer Payload κ :=
  if k.connected then k.poll lib w else k

end KafkaProducer

inductive ProducerEvent (Payload κ ω : Type)
  /-- A call of the service; what happens in its `Produce` calls may depend on the batch and on all that went before. -/
  | call (rpc : Rpc) (a : MetricsBatch → KafkaProducer Payload κ → ProduceAnswers ω)
  | work (w : ω)
  | flush (w : ω)
  /-- The collector ends and starts again. -/
  | restart (service : MetricsServiceImpl) (connected : Bool) (w : ω)

/-- A database that is not there. -/
def noDatabase {σ : Type} (_ : Sql) (s : σ) : Bool × σ := (false, s)

/-- The batches that went through. -/
def acceptedBatches (xs : List Ingestion) : List MetricsBatch := (xs.filter (·.ok)).map (·.batch)

/-- The collector with its producer, and every batch that this process accepted. -/
structure QueueingCollector (Payload κ : Type) where
  ingest : Ingest (KafkaProducer Payload κ)
  accepted : List MetricsBatch := []

variable (lib : Rdkafka Payload κ ω) (serialize : MetricsBatch → Option Payload)

/-- `m_producer->Produce`. -/
def produceWith (a : MetricsBatch → KafkaProducer Payload κ → ProduceAnswers ω) :
    Option (MetricsBatch → KafkaProducer Payload κ → Bool × KafkaProducer Payload κ) :=
  some fun batch k => k.produce lib serialize (a batch k) batch

def QueueingCollector.step (s : QueueingCollector Payload κ) :
    ProducerEvent Payload κ ω → Option (QueueingCollector Payload κ)
  | .call rpc a =>
    some { ingest := rpc.after noDatabase (produceWith lib serialize a) s.ingest
           accepted := s.accepted ++ acceptedBatches (rpc.ingested noDatabase (produceWith lib serialize a) s.ingest) }
  | .work w =>
    some { s with
      ingest := { s.ingest with world := { s.ingest.world with handle := lib.work w s.ingest.world.handle } } }
  | .flush w => some { s with ingest := { s.ingest with world := s.ingest.world.flush lib w } }
  | .restart service connected w =>
    if service.mode = .kafka then
      some { ingest := { service, world := { connected, handle := lib.create w s.ingest.world.handle } } }
    else none

/-- What the counters say, and what the library was given. -/
structure Counted (k : KafkaProducer Payload κ) (accepted : List MetricsBatch) : Prop where
  /-- An accepted batch is an accepted message. -/
  messages : (acceptedOf k.log).map some = accepted.map fun batch => (serialize batch).map (Record.mk batch.agentId)
  produced : k.producedTotal = accepted.length
  successes : k.deliverySuccesses = (deliveredOf k.log).length
  /-- A refused message counts as a failure, too. -/
  failures : k.deliveryFailures = (reportsOf k.log).countP (fun r => !r.delivered) + refusedIn k.log

/-- The messages of an agent's batches. -/
def messagesOf (accepted : List MetricsBatch) : List (Record Payload) :=
  accepted.filterMap fun batch => (serialize batch).map (Record.mk batch.agentId)

structure Accounted (k : KafkaProducer Payload κ) (accepted : List MetricsBatch) : Prop where
  counted : Counted serialize k accepted
  /-- No report is counted that is not of an accepted message. -/
  settled : k.deliverySuccesses + k.deliveryFailures ≤ k.producedTotal + refusedIn k.log
  /-- A partition has some of the messages of its agents, in the order in which their batches were accepted. -/
  ordered : ∀ partition, (lib.topic k.handle partition).Sublist
    ((messagesOf serialize accepted).filter fun m => lib.partitionOf m.key = partition)
  /-- When all are counted as delivered, it has them all. -/
  complete : k.deliverySuccesses = k.producedTotal → ∀ partition, lib.topic k.handle partition =
    (messagesOf serialize accepted).filter fun m => lib.partitionOf m.key = partition

/-! ## The counters -/

variable {lib serialize} {k : KafkaProducer Payload κ} {accepted : List MetricsBatch} {cluster : κ}

theorem acceptedOf_append (log log' : List (Happening Payload)) :
    acceptedOf (log ++ log') = acceptedOf log ++ acceptedOf log' := List.filterMap_append

theorem reportsOf_append (log log' : List (Happening Payload)) :
    reportsOf (log ++ log') = reportsOf log ++ reportsOf log' := List.filterMap_append

theorem refusedIn_append (log log' : List (Happening Payload)) :
    refusedIn (log ++ log') = refusedIn log + refusedIn log' := List.countP_append

theorem deliveredOf_append (log log' : List (Happening Payload)) :
    deliveredOf (log ++ log') = deliveredOf log ++ deliveredOf log' := by
  simp [deliveredOf, reportsOf_append]

/-- A produced message is no report. -/
theorem of_produced (m : Record Payload) (ok : Bool) : acceptedOf [Happening.produced m ok] = (if ok then [m] else []) ∧
    reportsOf [Happening.produced m ok] = [] ∧ refusedIn [Happening.produced m ok] = (if ok then 0 else 1) := by
  cases ok <;> exact ⟨rfl, rfl, rfl⟩

/-- Reports are nothing but reports. -/
theorem of_reports (reports : List (Report Payload)) : acceptedOf (reports.map Happening.reported) = [] ∧
    reportsOf (reports.map Happening.reported) = reports ∧ refusedIn (reports.map Happening.reported) = 0 := by
  induction reports with
  | nil => exact ⟨rfl, rfl, rfl⟩
  | cons r reports ih =>
    obtain ⟨haccepted, hreports, hrefused⟩ := ih
    have hsplit : (r :: reports).map Happening.reported = [.reported r] ++ reports.map .reported := rfl
    rw [hsplit, acceptedOf_append, reportsOf_append, refusedIn_append, haccepted, hreports, hrefused]
    exact ⟨rfl, rfl, rfl⟩

/-- The callback counts each report. -/
theorem foldl_drCb (reports : List (Report Payload)) (k : KafkaProducer Payload κ) :
    reports.foldl KafkaProducer.drCb k = { k with
      deliverySuccesses := k.deliverySuccesses + reports.countP (·.delivered)
      deliveryFailures := k.deliveryFailures + reports.countP (fun r => !r.delivered) } := by
  induction reports generalizing k with
  | nil => rfl
  | cons r reports ih =>
    rw [List.foldl_cons, ih]
    cases hr : r.delivered <;> simp [KafkaProducer.drCb, hr, Nat.add_assoc, Nat.add_comm 1]

/-- What a poll leaves. -/
theorem poll_eq (w : ω) (k : KafkaProducer Payload κ) : k.poll lib w = { k with
    deliverySuccesses := k.deliverySuccesses + (lib.poll w k.handle).1.countP (·.delivered)
    deliveryFailures := k.deliveryFailures + (lib.poll w k.handle).1.countP (fun r => !r.delivered)
    handle := (lib.poll w k.handle).2, log := k.log ++ (lib.poll w k.handle).1.map .reported } := by
  exact foldl_drCb _ _

/-- The producer of a process: its state has a history, and its counters agree with that. -/
structure Consistent (lib : Rdkafka Payload κ ω) (serialize : MetricsBatch → Option Payload) (cluster : κ)
    (k : KafkaProducer Payload κ) (accepted : List MetricsBatch) : Prop where
  history : lib.History cluster k.handle k.log
  counted : Counted serialize k accepted

theorem Consistent.poll (h : Consistent lib serialize cluster k accepted) (w : ω) :
    Consistent lib serialize cluster (k.poll lib w) accepted := by
  obtain ⟨haccepted, hreports, hrefused⟩ := of_reports (lib.poll w k.handle).1
  have hdelivered : (deliveredOf ((lib.poll w k.handle).1.map Happening.reported)).length =
      (lib.poll w k.handle).1.countP (·.delivered) := by
    rw [deliveredOf, hreports, List.length_map, ← List.countP_eq_length_filter]
  rw [poll_eq]
  refine ⟨h.history.poll w, ?_, h.counted.produced, ?_, ?_⟩
  · rw [acceptedOf_append, haccepted, List.append_nil]
    exact h.counted.messages
  · rw [deliveredOf_append, List.length_append, hdelivered]
    exact congrArg (· + _) h.counted.successes
  · rw [reportsOf_append, refusedIn_append, hreports, hrefused, List.countP_append]
    have := h.counted.failures
    dsimp only
    omega

theorem Consistent.flush (h : Consistent lib serialize cluster k accepted) (w : ω) :
    Consistent lib serialize cluster (k.flush lib w) accepted := by
  unfold KafkaProducer.flush
  split
  · exact h.poll w
  · exact h

/-- What `Produce` does: nothing, or the message is accepted, or refused. -/
theorem produce_cases (a : ProduceAnswers ω) (batch : MetricsBatch) (k : KafkaProducer Payload κ) :
    k.produce lib serialize a batch = (false, k) ∨ ∃ value handle, serialize batch = some value ∧
      ((lib.produce a.produce ⟨batch.agentId, value⟩ k.handle = (true, handle) ∧
          k.produce lib serialize a batch = (true, { k with
            producedTotal := k.producedTotal + 1, handle
            log := k.log ++ [Happening.produced ⟨batch.agentId, value⟩ true] }.poll lib a.poll)) ∨
        (lib.produce a.produce ⟨batch.agentId, value⟩ k.handle = (false, handle) ∧
          k.produce lib serialize a batch = (false, { k with
            deliveryFailures := k.deliveryFailures + 1, handle
            log := k.log ++ [.produced ⟨batch.agentId, value⟩ false] }))) := by
  cases hconnected : k.connected with
  | false => exact .inl (by simp [KafkaProducer.produce, hconnected])
  | true =>
    cases hvalue : serialize batch with
    | none => exact .inl (by simp [KafkaProducer.produce, hconnected, hvalue])
    | some value =>
      cases hout : lib.produce a.produce ⟨batch.agentId, value⟩ k.handle with
      | mk ok handle =>
        cases ok with
        | true =>
          exact .inr ⟨value, handle, rfl, .inl ⟨hout, by simp [KafkaProducer.produce, hconnected, hvalue, hout]⟩⟩
        | false =>
          exact .inr ⟨value, handle, rfl, .inr ⟨hout, by simp [KafkaProducer.produce, hconnected, hvalue, hout]⟩⟩

/-- `Produce`: an accepted batch is an accepted message, a refused one a failure. -/
theorem Consistent.produce (h : Consistent lib serialize cluster k accepted) (a : ProduceAnswers ω)
    (batch : MetricsBatch) : Consistent lib serialize cluster (k.produce lib serialize a batch).2
      (accepted ++ if (k.produce lib serialize a batch).1 then [batch] else []) := by
  obtain ⟨hmessages, hproduced, hsuccesses, hfailures⟩ := h.counted
  rcases @produce_cases _ _ _ lib serialize a batch k with hnone | ⟨value, handle, hvalue, hcase⟩
  · rw [hnone]
    simpa using h
  let m : Record Payload := ⟨batch.agentId, value⟩
  have hhistory := h.history.produce a.produce m
  rcases hcase with ⟨hout, heq⟩ | ⟨hout, heq⟩
  · obtain ⟨haccepted, hreports, hrefused⟩ := of_produced m true
    have hnext : Consistent lib serialize cluster { k with
        producedTotal := k.producedTotal + 1, handle, log := k.log ++ [.produced m true] } (accepted ++ [batch]) := by
      refine ⟨by rwa [hout] at hhistory, ?_, by simp [hproduced], ?_, ?_⟩
      · rw [acceptedOf_append, haccepted, List.map_append, hmessages]
        simp [hvalue, m]
      · rw [deliveredOf_append, List.length_append]
        exact hsuccesses
      · rw [reportsOf_append, refusedIn_append, hreports, hrefused, List.append_nil]
        exact hfailures
    rw [heq]
    exact hnext.poll a.poll
  · obtain ⟨haccepted, hreports, hrefused⟩ := of_produced m false
    rw [heq]
    refine ⟨by rwa [hout] at hhistory, ?_, by simpa using hproduced, ?_, ?_⟩
    · rw [acceptedOf_append, haccepted]
      simpa using hmessages
    · rw [deliveredOf_append, List.length_append]
      exact hsuccesses
    · rw [reportsOf_append, refusedIn_append, hreports, hrefused, List.append_nil]
      exact congrArg (· + 1) hfailures

/-! ## What the library promises of it -/

theorem messagesOf_eq (h : Counted serialize k accepted) : acceptedOf k.log = messagesOf serialize accepted := by
  have hmap := congrArg (List.filterMap id) h.messages
  rw [List.filterMap_map, List.filterMap_map] at hmap
  simpa [messagesOf, Function.comp_def] using hmap

theorem length_acceptedOf (h : Counted serialize k accepted) : (acceptedOf k.log).length = k.producedTotal := by
  have hlength := congrArg List.length h.messages
  rw [List.length_map, List.length_map] at hlength
  rw [hlength, h.produced]

/-- **What the counters are worth.** -/
theorem Consistent.accounted [DecidableEq Payload] (hlib : lib.Documented cluster)
    (h : Consistent lib serialize cluster k accepted) : Accounted lib serialize k accepted := by
  have honce := hlib.once _ _ h.history
  have hwritten := hlib.written _ _ h.history
  have hordered := hlib.ordered _ _ h.history
  have hmessages := messagesOf_eq h.counted
  have hlength := length_acceptedOf h.counted
  have hreports : ((reportsOf k.log).map (·.record)).Subperm (acceptedOf k.log) :=
    List.subperm_ext_iff.2 fun m _ => honce m
  have hdelivered : (deliveredOf k.log).Subperm (acceptedOf k.log) :=
    ((List.filter_sublist.map _).subperm).trans hreports
  refine ⟨h.counted, ?_, fun partition => ?_, fun hall partition => ?_⟩
  · have hcount := hreports.length_le
    have hsplit := (reportsOf k.log).length_eq_countP_add_countP (·.delivered)
    have hsuccesses := h.counted.successes
    have hfailures := h.counted.failures
    rw [deliveredOf, List.length_map, ← List.countP_eq_length_filter] at hsuccesses
    rw [List.length_map] at hcount
    simp only [Bool.not_eq_true, Bool.decide_eq_false] at hsplit
    omega
  · rw [← hmessages]
    exact hordered partition
  · -- every accepted message was reported delivered, so it has been written
    have hperm : (deliveredOf k.log).Perm (acceptedOf k.log) := by
      apply hdelivered.perm_of_length_le
      rw [hlength, ← hall, h.counted.successes]
    rw [← hmessages]
    apply (hordered partition).eq_of_length_le
    apply List.Subperm.length_le
    rw [List.subperm_ext_iff]
    intro m hm
    obtain ⟨-, hpartition⟩ := List.mem_filter.1 hm
    have hpartition : lib.partitionOf m.key = partition := by simpa using hpartition
    calc ((acceptedOf k.log).filter fun m => lib.partitionOf m.key = partition).count m
        ≤ (acceptedOf k.log).count m := List.filter_sublist.count_le m
      _ = (deliveredOf k.log).count m := (hperm.count_eq m).symm
      _ ≤ (lib.topic k.handle partition).count m := by
          rw [← hpartition]
          exact hwritten m

/-! ## What a call does to the producer -/

section Call

variable {a : MetricsBatch → KafkaProducer Payload κ → ProduceAnswers ω} {c : Ingest (KafkaProducer Payload κ)}

/-- The producer behind some ingested batches. -/
def Follows (lib : Rdkafka Payload κ ω) (serialize : MetricsBatch → Option Payload) (cluster : κ)
    (accepted : List MetricsBatch) (c : Ingest (KafkaProducer Payload κ)) (xs : List Ingestion) : Prop :=
  c.service.mode = .kafka ∧ Consistent lib serialize cluster c.world (accepted ++ acceptedBatches xs)

theorem acceptedBatches_snoc (xs : List Ingestion) (x : Ingestion) :
    acceptedBatches (xs ++ [x]) = acceptedBatches xs ++ if x.ok then [x.batch] else [] := by
  cases hok : x.ok <;> simp [acceptedBatches, hok]

/-- `IngestBatch` in Kafka mode is `Produce`. -/
theorem Follows.ingest {xs : List Ingestion} (h : Follows lib serialize cluster accepted c xs) (call : IngestCall)
    (batch : MetricsBatch) :
    let ingested := c.ingestBatch noDatabase (produceWith lib serialize a) call batch
    Follows lib serialize cluster accepted ingested.2 (xs ++ [⟨call, batch, ingested.1⟩]) := by
  intro ingested
  obtain ⟨hmode, hconsistent⟩ := h
  have hstore : c.store noDatabase (produceWith lib serialize a) call batch =
      ((c.world.produce lib serialize (a batch c.world) batch).1,
        { c with world := (c.world.produce lib serialize (a batch c.world) batch).2 }) := by
    simp only [Ingest.store, hmode, produceWith]
  have hok : ingested.1 = (c.world.produce lib serialize (a batch c.world) batch).1 := by
    simp only [ingested, Ingest.ingestBatch, hstore]
  have hworld : ingested.2.world = (c.world.produce lib serialize (a batch c.world) batch).2 := by
    simp only [ingested, Ingest.ingestBatch, hstore, Ingest.evaluate_world]
  have hservice : ingested.2.service = c.service := by
    simp only [ingested, Ingest.ingestBatch, hstore, Ingest.evaluate_service]
  refine ⟨(congrArg (·.mode) hservice).trans hmode, ?_⟩
  rw [hworld, acceptedBatches_snoc, ← List.append_assoc, hok]
  exact hconsistent.produce (a batch c.world) batch

theorem Follows.flush {st : Streaming (KafkaProducer Payload κ)} {calls : Nat → IngestCall}
    (h : Follows lib serialize cluster accepted st.collector st.ingested) :
    Follows lib serialize cluster accepted (st.flush noDatabase (produceWith lib serialize a) calls).2.collector
      (st.flush noDatabase (produceWith lib serialize a) calls).2.ingested := by
  unfold Streaming.flush
  dsimp only
  split
  · exact h
  · exact h.ingest (calls st.ingested.length) st.batch

/-- **One call**: what it accepted comes behind what was accepted before. -/
theorem Follows.call (h : Follows lib serialize cluster accepted c []) (rpc : Rpc) :
    Follows lib serialize cluster accepted (rpc.after noDatabase (produceWith lib serialize a) c)
      (rpc.ingested noDatabase (produceWith lib serialize a) c) := by
  cases rpc with
  | sendMetrics call request =>
    unfold Rpc.after Rpc.ingested Ingest.sendIngested Ingest.sendMetrics
    dsimp only
    split
    · exact h
    split
    · exact h
    · let svc := Ingest.countReceived { c.service with batchesReceived := c.service.batchesReceived + 1 } call request
      have hcounted : Follows lib serialize cluster accepted { c with service := svc } [] := h
      have hingested := hcounted.ingest (a := a) call request
      split
      · exact hingested
      · exact hingested
  | streamMetrics calls header nowMs metrics =>
    unfold Rpc.after Rpc.ingested Ingest.streamMetrics
    dsimp only
    split
    · exact h
    · have hread := @Streaming.readLoop_inv _ noDatabase (produceWith lib serialize a) calls
        (.start { c with service := { c.service with batchesReceived := c.service.batchesReceived + 1 } }
          (header.getD "") nowMs)
        (fun st => Follows lib serialize cluster accepted st.collector st.ingested) (fun _ _ h => h) (fun _ _ h => h)
        (fun _ h => h.flush) metrics h
      split
      · exact hread
      split
      · exact hread.flush
      · exact hread

end Call

/-! ## Runs -/

/-- The collector's producer is consistent. -/
def Keeps (lib : Rdkafka Payload κ ω) (serialize : MetricsBatch → Option Payload) (cluster : κ)
    (s : QueueingCollector Payload κ) : Prop :=
  s.ingest.service.mode = .kafka ∧ Consistent lib serialize cluster s.ingest.world s.accepted

theorem keeps_step (s : QueueingCollector Payload κ) (e : ProducerEvent Payload κ ω) (s' : QueueingCollector Payload κ)
    (h : Keeps lib serialize cluster s) (hs : s.step lib serialize e = some s') : Keeps lib serialize cluster s' := by
  cases e with
  | call rpc a =>
    cases hs
    have hcall : Follows lib serialize cluster s.accepted s.ingest [] := ⟨h.1, by simpa [acceptedBatches] using h.2⟩
    exact hcall.call rpc
  | work w =>
    cases hs
    obtain ⟨hmode, hhistory, hmessages, hproduced, hsuccesses, hfailures⟩ := h
    exact ⟨hmode, hhistory.work w, hmessages, hproduced, hsuccesses, hfailures⟩
  | flush w =>
    cases hs
    exact ⟨h.1, h.2.flush w⟩
  | restart service connected w =>
    simp only [QueueingCollector.step] at hs
    split at hs
    · rename_i hmode
      cases hs
      exact ⟨hmode, h.2.history.again w, rfl, rfl, rfl, rfl⟩
    · cases hs

/-- **Main.** In every run of calls, polls and restarts of a collector in Kafka mode, whatever the cluster does. -/
theorem producer_accounts [DecidableEq Payload] (hlib : lib.Documented cluster) (w : ω) (service : MetricsServiceImpl)
    (connected : Bool) (alerts : Option Alerting.AlertManager) (hmode : service.mode = .kafka)
    (run : List (ProducerEvent Payload κ ω)) :
    Always (QueueingCollector.step lib serialize) (fun s => Accounted lib serialize s.ingest.world s.accepted)
      { ingest := { service, alerts, world := { connected, handle := lib.create w cluster } } } run := by
  have hstart : Keeps lib serialize cluster
      { ingest := { service, alerts, world := { connected, handle := lib.create w cluster } } } :=
    ⟨hmode, .create w, rfl, rfl, rfl, rfl⟩
  exact always_of_inv keeps_step (fun _ h => h.2.accounted hlib) hstart

end

/-! ## A topic of one partition -/

section

open Agent

/-- A producer's queue, the reports that no poll has seen yet, and what was written. -/
structure OnePartition where
  queue : List (Record Blob) := []
  reports : List (Report Blob) := []
  topic : List (Record Blob) := []

/-- Whether there is room for a message, and what becomes of the oldest one. -/
structure Chance where
  room : Bool := true
  delivered : Bool := true

/-- The oldest message is written or given up. -/
def OnePartition.settle (w : Chance) (k : OnePartition) : OnePartition :=
  match k.queue with
  | [] => k
  | m :: queue =>
    { queue, reports := k.reports ++ [⟨m, w.delivered⟩], topic := if w.delivered then k.topic ++ [m] else k.topic }

def onePartition : Rdkafka Blob OnePartition Chance where
  partitionOf _ := 0
  create _ _ := { }
  produce w m k := if w.room then (true, { k with queue := k.queue ++ [m] }) else (false, k)
  poll _ k := (k.reports, { k with reports := [] })
  work := OnePartition.settle
  topic k partition := if partition = 0 then k.topic else []

/-- Each accepted message is queued or reported, and those reported delivered are written, in order. -/
structure OnePartition.Kept (k : OnePartition) (log : List (Happening Blob)) : Prop where
  once : (reportsOf log ++ k.reports).map (·.record) ++ k.queue = acceptedOf log
  written : k.topic = ((reportsOf log ++ k.reports).filter (·.delivered)).map (·.record)

theorem OnePartition.kept {cluster k : OnePartition} {log : List (Happening Blob)}
    (h : onePartition.History cluster k log) : k.Kept log := by
  induction h with
  | create w => exact ⟨rfl, rfl⟩
  | again w _ _ => exact ⟨rfl, rfl⟩
  | @produce w m k log _ ih =>
    obtain ⟨honce, hwritten⟩ := ih
    simp only [onePartition]
    rw [List.map_append] at honce
    obtain ⟨haccepted, hreports, -⟩ := of_produced m w.room
    cases hroom : w.room with
    | true =>
      rw [hroom] at haccepted hreports
      refine ⟨?_, by simpa [reportsOf_append, hreports] using hwritten⟩
      simp [reportsOf_append, acceptedOf_append, hreports, haccepted, ← honce]
    | false =>
      rw [hroom] at haccepted hreports
      refine ⟨?_, by simpa [reportsOf_append, hreports] using hwritten⟩
      simp [reportsOf_append, acceptedOf_append, hreports, haccepted, ← honce]
  | @poll w k log _ ih =>
    obtain ⟨honce, hwritten⟩ := ih
    obtain ⟨haccepted, hreports, -⟩ := of_reports k.reports
    refine ⟨?_, ?_⟩
    · simpa [onePartition, reportsOf_append, acceptedOf_append, haccepted, hreports] using honce
    · simpa [onePartition, reportsOf_append, hreports] using hwritten
  | @work w k log _ ih =>
    obtain ⟨honce, hwritten⟩ := ih
    simp only [onePartition, OnePartition.settle]
    split
    · exact ⟨honce, hwritten⟩
    · rename_i m queue hqueue
      rw [hqueue] at honce
      refine ⟨by simpa using honce, ?_⟩
      rw [← List.append_assoc, List.filter_append, List.map_append, ← hwritten]
      cases w.delivered <;> simp

theorem onePartition_documented (cluster : OnePartition) : onePartition.Documented cluster where
  once k log h m := by
    have honce := (OnePartition.kept h).once
    rw [← honce, List.map_append, List.append_assoc, List.count_append]
    omega
  ordered k log h partition := by
    obtain ⟨honce, hwritten⟩ := OnePartition.kept h
    by_cases hzero : partition = 0
    · have hall : ((acceptedOf log).filter fun m => onePartition.partitionOf m.key = partition) = acceptedOf log :=
        List.filter_eq_self.2 fun m _ => decide_eq_true hzero.symm
      rw [hall, ← honce]
      simp only [onePartition, hzero, if_true]
      rw [hwritten]
      exact (List.filter_sublist.map _).trans (List.sublist_append_left _ _)
    · simp [onePartition, hzero]
  written k log h m := by
    have hwritten := (OnePartition.kept h).written
    show _ ≤ List.count m k.topic
    rw [hwritten, List.filter_append, List.map_append, List.count_append]
    exact Nat.le_add_right _ _

/-- Two batches of one agent, and one for which there is no room: the first is written, the second is given up, and
both were acknowledged. -/
theorem producer_accounts_given_up :
    let ping : Metric := { checkType := .icmpPing, target := "1.1.1.1", success := true }
    let send (n : Int) : Rpc := .sendMetrics { } { agentId := "a", timestampUnixMs := n, metrics := [ping] }
    let run : List (ProducerEvent Blob OnePartition Chance) := [.call (send 1) fun _ _ => ⟨{ }, { }⟩,
      .call (send 2) fun _ _ => ⟨{ }, { }⟩, .call (send 2) fun _ _ => ⟨{ room := false }, { }⟩, .work { },
      .work { delivered := false }, .flush { }]
    let step := QueueingCollector.step onePartition wireSerialize
    let begin : QueueingCollector Blob OnePartition :=
      { ingest := { service := { mode := .kafka }, world := { handle := onePartition.create { } { } } } }
    (runEvents step begin run).map (fun s => (s.ingest.world.handle.topic.map (·.value), s.ingest.world.producedTotal,
        s.ingest.world.deliverySuccesses, s.ingest.world.deliveryFailures, s.accepted.length)) =
        some ([[0x0a, 1, 0x61, 0x10, 1, 0x1a, 13, 0x08, 5, 0x12, 7, 0x31, 0x2e, 0x31, 0x2e, 0x31, 0x2e, 0x31, 0x70, 1]],
          2, 1, 2, 2) ∧
      Always step (fun s => Accounted onePartition wireSerialize s.ingest.world s.accepted) begin run := by
  intro ping send run step begin
  exact ⟨by decide +kernel, producer_accounts (onePartition_documented { }) { } { mode := .kafka } true none rfl run⟩

end

end PudimNetMon.Kafka
