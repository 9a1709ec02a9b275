import Mathlib.Algebra.Ring.Int.Defs
import Mathlib.Algebra.Ring.Nat
import PudimNetMon.Collector.StreamMetrics
import PudimNetMon.Lib.Run

/-!
# The counters of the metrics service (`metrics_service.cpp`)

A stream is cut into the batches of its `IngestBatch` calls; `Tally` is the loop's account of what it read, `Settled`
the account at its end. Over the calls of the service the metrics received are those rejected and those accepted,
except for a `SendMetrics` without an agent id, which counts its metrics as rejected only.

- `streamMetrics_accounted`: the response, the batches and the outcome of a stream;
- `balanced_iff`: the counters balance in a run of calls exactly when no such `SendMetrics` carries metrics.
-/

namespace PudimNetMon.Collector

open Storage

variable {σ : Type} (exec : Sql → σ → Bool × σ) (produce : Option (MetricsBatch → σ → Bool × σ))

namespace Ingest

/-- An ingest leaves the counters to its caller. -/
theorem ingestBatch_service (c : Ingest σ) (call : IngestCall) (batch : MetricsBatch) :
    (c.ingestBatch exec produce call batch).2.service = c.service := by
  have hstore : (c.store exec produce call batch).2.service = c.service := by
    unfold store
    cases c.service.mode with
    | direct => rfl
    | kafka => cases produce <;> rfl
  exact evaluate_service.trans hstore

end Ingest

/-- The number of metrics in the batches that were written. -/
def storedCount (ingested : List Ingestion) : Nat :=
  ((ingested.filter (·.ok)).map fun x => x.batch.metrics.length).sum

/-- The account of a stream of metrics. -/
structure Accounted (metrics : List Metric) (out : Streamed σ) : Prop where
  total : out.response.acceptedCount + out.response.rejectedCount = metrics.length
  sizes : ∀ x ∈ out.ingested, 1 ≤ x.batch.metrics.length ∧ x.batch.metrics.length ≤ 500
  /-- The batches are consecutive segments from the start of the stream on. -/
  segments : out.ingested.flatMap (·.batch.metrics) <+: metrics
  whole : (∀ x ∈ out.ingested, x.ok = true) → out.ingested.flatMap (·.batch.metrics) = metrics
  /-- Nothing is ingested behind a batch that failed. -/
  stops : ∀ before x after, out.ingested = before ++ x :: after → x.ok = false → after = []
  accepted : out.response.acceptedCount = storedCount out.ingested
  ack : out.response.ack = true ↔ ∀ x ∈ out.ingested, x.ok = true

namespace Streaming

theorem storedCount_of_ok {ingested : List Ingestion} (h : ∀ x ∈ ingested, x.ok = true) :
    storedCount ingested = (ingested.flatMap (·.batch.metrics)).length := by
  unfold storedCount
  rw [List.filter_eq_self.2 h, List.length_flatMap]

theorem storedCount_failed {ingested : List Ingestion} {x : Ingestion} (hx : x.ok = false) :
    storedCount (ingested ++ [x]) = storedCount ingested := by
  unfold storedCount
  rw [List.filter_append, List.filter_cons_of_neg (by simp [hx]), List.filter_nil, List.append_nil]

/-- Behind batches that were written nothing follows the next one. -/
theorem nothing_behind {ingested : List Ingestion} (h : ∀ x ∈ ingested, x.ok = true) (last : Ingestion) :
    ∀ before x after, ingested ++ [last] = before ++ x :: after → x.ok = false → after = [] := by
  intro before x after hsplit hx
  rcases List.eq_nil_or_concat after with rfl | ⟨after, y, rfl⟩
  · rfl
  · rw [List.concat_eq_append] at hsplit
    have hsplit : ingested ++ [last] = (before ++ x :: after) ++ [y] := by simpa using hsplit
    have hmem : x ∈ ingested := by
      rw [List.append_inj_left' hsplit rfl]
      exact List.mem_append_right _ List.mem_cons_self
    cases hx.symm.trans (h x hmem)

/-- The loop's account, in front of the rest of the stream. -/
structure Tally (c : Ingest σ) (metrics : List Metric) (st : Streaming σ) (rest : List Metric) : Prop where
  read : st.ingested.flatMap (·.batch.metrics) ++ (st.batch.metrics ++ rest) = metrics
  sizes : ∀ x ∈ st.ingested, 1 ≤ x.batch.metrics.length ∧ x.batch.metrics.length ≤ 500
  ok : ∀ x ∈ st.ingested, x.ok = true
  accepted : st.accepted = (st.ingested.flatMap (·.batch.metrics)).length
  rejected : st.rejected = 0
  received : st.collector.service.receivedMetrics + rest.length = c.service.receivedMetrics + metrics.length
  counted : st.collector.service.rejectedMetrics = c.service.rejectedMetrics

/-- The account at the end of a stream, and whether no batch failed. -/
structure Settled (c : Ingest σ) (metrics : List Metric) (ok : Bool) (st : Streaming σ) : Prop where
  accounted : Accounted metrics (st.respond ok)
  received : st.collector.service.receivedMetrics = c.service.receivedMetrics + metrics.length
  counted : st.collector.service.rejectedMetrics = c.service.rejectedMetrics

variable {exec produce} {c : Ingest σ} {metrics : List Metric} {st : Streaming σ} {rest : List Metric}
  {calls : Nat → IngestCall}

theorem Tally.receive {m : Metric} (h : Tally c metrics st (m :: rest)) : Tally c metrics (st.receive m) rest := by
  refine ⟨?_, h.sizes, h.ok, h.accepted, h.rejected, ?_, h.counted⟩
  · show st.ingested.flatMap (·.batch.metrics) ++ ((st.batch.metrics ++ [m]) ++ rest) = metrics
    rw [← h.read, List.append_assoc]
    rfl
  · show st.collector.service.receivedMetrics + 1 + rest.length = _
    have := h.received
    rw [List.length_cons] at this
    omega

/-- A flush of a batch that is not empty. -/
theorem flush_eq (hne : st.batch.metrics.length ≠ 0) :
    let ingest := st.collector.ingestBatch exec produce (calls st.ingested.length) st.batch
    st.flush exec produce calls = (ingest.1,
      { collector := ingest.2, batch := { st.batch with metrics := [] }
        accepted := if ingest.1 then st.accepted + st.batch.metrics.length else st.accepted
        rejected := if ingest.1 then st.rejected else st.rejected + st.batch.metrics.length
        ingested := st.ingested ++ [⟨calls st.ingested.length, st.batch, ingest.1⟩] }) := by
  unfold Streaming.flush
  rw [if_neg hne]

/-- **A flush.** The account goes on behind a batch that was written, and is settled behind the first that was not. -/
theorem Tally.flush (exec : Sql → σ → Bool × σ) (produce : Option (MetricsBatch → σ → Bool × σ))
    (calls : Nat → IngestCall) (h : Tally c metrics st rest) (hpos : 1 ≤ st.batch.metrics.length)
    (hle : st.batch.metrics.length ≤ 500) :
    ((st.flush exec produce calls).1 = true → Tally c metrics (st.flush exec produce calls).2 rest) ∧
      ((st.flush exec produce calls).1 = false →
        Settled c metrics false ((st.flush exec produce calls).2.drain rest)) := by
  have hservice := Ingest.ingestBatch_service exec produce st.collector (calls st.ingested.length) st.batch
  rw [flush_eq (by omega)]
  generalize st.collector.ingestBatch exec produce (calls st.ingested.length) st.batch = ingest at hservice ⊢
  obtain ⟨ok, after⟩ := ingest
  dsimp only at hservice ⊢
  have hread := h.read
  have hlength := congrArg List.length hread
  rw [List.length_append, List.length_append, ← h.accepted] at hlength
  have hrejected := h.rejected
  have hreceived := h.received
  have hsizes : ∀ x ∈ st.ingested ++ [⟨calls st.ingested.length, st.batch, ok⟩],
      1 ≤ x.batch.metrics.length ∧ x.batch.metrics.length ≤ 500 := by
    rw [List.forall_mem_append, List.forall_mem_singleton]
    exact ⟨h.sizes, hpos, hle⟩
  constructor
  · rintro rfl
    refine ⟨?_, hsizes, ?_, ?_, hrejected, ?_, ?_⟩
    · simpa using hread
    · rw [List.forall_mem_append, List.forall_mem_singleton]
      exact ⟨h.ok, rfl⟩
    · simp [h.accepted]
    · rw [hservice]
      exact hreceived
    · rw [hservice]
      exact h.counted
  · rintro rfl
    refine ⟨⟨?_, hsizes, ?_, fun hall => ?_, nothing_behind h.ok _, ?_, ?_⟩, ?_, ?_⟩
    · show st.accepted + (st.rejected + st.batch.metrics.length + rest.length) = metrics.length
      omega
    · refine ⟨rest, ?_⟩
      simpa [Streaming.respond, Streaming.drain] using hread
    · have hlast := hall ⟨calls st.ingested.length, st.batch, false⟩ (List.mem_append_right _ List.mem_cons_self)
      cases hlast
    · show st.accepted = storedCount (st.ingested ++ [_])
      rw [storedCount_failed rfl, storedCount_of_ok h.ok, h.accepted]
    · refine iff_of_false nofun fun hall => ?_
      have hlast := hall ⟨calls st.ingested.length, st.batch, false⟩ (List.mem_append_right _ List.mem_cons_self)
      cases hlast
    · show after.service.receivedMetrics + rest.length = _
      rw [hservice]
      exact hreceived
    · show after.service.rejectedMetrics = _
      rw [hservice]
      exact h.counted

theorem Tally.start (c : Ingest σ) (agentId : String) (nowMs : Int) (metrics : List Metric) :
    Tally c metrics (.start c agentId nowMs) metrics :=
  ⟨rfl, nofun, nofun, rfl, rfl, rfl, rfl⟩

/-- **The loop.** The stream was read to its end, or a batch failed and the account is settled. -/
theorem Tally.readLoop (exec : Sql → σ → Bool × σ) (produce : Option (MetricsBatch → σ → Bool × σ))
    (calls : Nat → IngestCall) (h : Tally c metrics st rest) (hshort : st.batch.metrics.length < kFlushThreshold) :
    let out := readLoop exec produce calls st rest
    (out.1 = true ∧ Tally c metrics out.2 [] ∧ out.2.batch.metrics.length < kFlushThreshold) ∨
      (out.1 = false ∧ Settled c metrics false out.2) := by
  induction rest generalizing st with
  | nil => exact .inl ⟨rfl, h, hshort⟩
  | cons m rest ih =>
    have hreceive := h.receive
    have hlength : (st.receive m).batch.metrics.length = st.batch.metrics.length + 1 := by simp [Streaming.receive]
    have hthreshold : kFlushThreshold = 500 := rfl
    unfold Streaming.readLoop
    dsimp only
    split
    · obtain ⟨hyes, hno⟩ := hreceive.flush exec produce calls (by omega) (by omega)
      split
      · rename_i hfailed
        rw [Bool.not_eq_true'] at hfailed
        exact .inr ⟨rfl, hno hfailed⟩
      · rename_i hok
        rw [Bool.not_eq_true', Bool.not_eq_false] at hok
        refine ih (hyes hok) ?_
        rw [flush_batch]
        decide
    · exact ih hreceive (by omega)

/-- The account of a stream that was read to its end. -/
theorem Tally.settled (h : Tally c metrics st []) (hempty : st.batch.metrics = []) : Settled c metrics true st := by
  have hread : st.ingested.flatMap (·.batch.metrics) = metrics := by simpa [hempty] using h.read
  have hrejected := h.rejected
  have haccepted := h.accepted
  refine ⟨⟨?_, h.sizes, ?_, fun _ => hread, fun before x after hsplit hx => ?_, ?_, ?_⟩, h.received, h.counted⟩
  · show st.accepted + st.rejected = metrics.length
    rw [hrejected, haccepted, hread]
    rfl
  · exact ⟨[], by rw [List.append_nil]; exact hread⟩
  · have hmem : x ∈ st.ingested := by
      rw [show st.ingested = before ++ x :: after from hsplit]
      exact List.mem_append_right _ List.mem_cons_self
    cases hx.symm.trans (h.ok x hmem)
  · show st.accepted = storedCount st.ingested
    rw [storedCount_of_ok h.ok, haccepted]
  · exact iff_of_true rfl h.ok

end Streaming

namespace Ingest

variable (c : Ingest σ) (calls : Nat → IngestCall) {header : Option String} (nowMs : Int) (metrics : List Metric)

/-- A stream of a named agent ends with its account settled. -/
theorem streamMetrics_settled (hagent : (header.getD "").isEmpty = false) :
    ∃ ok st, c.streamMetrics exec produce calls header nowMs metrics = Streaming.respond st ok ∧
      Streaming.Settled c metrics ok st := by
  obtain ⟨started, hstarted⟩ : ∃ started : Ingest σ,
    started = { c with service := { c.service with batchesReceived := c.service.batchesReceived + 1 } } := ⟨_, rfl⟩
  have hstart := Streaming.Tally.start started (header.getD "") nowMs metrics
  have hloop := hstart.readLoop exec produce calls (show ([] : List Metric).length < kFlushThreshold by decide)
  -- the counters of the metrics are those before the call
  have hsame : ∀ {ok st}, Streaming.Settled started metrics ok st → Streaming.Settled c metrics ok st :=
    fun h => ⟨h.accounted, by rw [h.received, hstarted], by rw [h.counted, hstarted]⟩
  unfold streamMetrics
  dsimp only
  rw [if_neg (by simp [hagent]), ← hstarted]
  dsimp only at hloop
  generalize Streaming.readLoop exec produce calls (.start started (header.getD "") nowMs) metrics = out at hloop ⊢
  obtain ⟨ok, st⟩ := out
  rcases hloop with ⟨rfl, htally, hshort⟩ | ⟨rfl, hsettled⟩
  · rw [if_neg (show ¬(!true) = true by decide)]
    split
    · rename_i hpos
      have hthreshold : kFlushThreshold = 500 := rfl
      obtain ⟨hyes, hno⟩ := htally.flush exec produce calls hpos (by omega)
      cases hok : (st.flush exec produce calls).1 with
      | true => exact ⟨_, _, rfl, hsame ((hyes hok).settled Streaming.flush_batch)⟩
      | false => exact ⟨_, _, rfl, hsame (hno hok)⟩
    · rename_i hempty
      exact ⟨_, _, rfl, hsame (htally.settled (List.eq_nil_of_length_eq_zero (by omega)))⟩
  · exact ⟨_, _, rfl, hsame hsettled⟩

/-- **Streams.** The response of a stream of a named agent accounts for every metric, and its batches are the segments
of what was read up to the first that failed. -/
theorem streamMetrics_accounted (hagent : (header.getD "").isEmpty = false) :
    Accounted metrics (c.streamMetrics exec produce calls header nowMs metrics) := by
  obtain ⟨ok, st, heq, hsettled⟩ := streamMetrics_settled exec produce c calls nowMs metrics hagent
  rw [heq]
  exact hsettled.accounted

/-- A stream of two metrics while Kafka is away. -/
theorem streamMetrics_accounted_kafka :
    let c : Ingest Unit := { service := { mode := .kafka }, world := () }
    let metrics : List Metric := [{ target := "dns" }, { target := "web" }]
    let out := c.streamMetrics (fun _ db => (true, db)) none (fun _ => { }) (some "edge") 0 metrics
    out.response.rejectedCount = 2 ∧ Accounted metrics out := by
  intro c metrics out
  exact ⟨by decide, streamMetrics_accounted _ none c _ 0 metrics (by decide)⟩

end Ingest

/-! ## Calls -/

namespace Rpc

def response (c : Ingest σ) : Rpc → MetricsResponse
  | sendMetrics call request => (c.sendMetrics exec produce call request).response
  | streamMetrics calls header nowMs metrics => (c.streamMetrics exec produce calls header nowMs metrics).response

/-- The metrics that a call counts as rejected and not as received. -/
def uncounted : Rpc → Nat
  | sendMetrics _ request => if request.agentId.isEmpty then request.metrics.length else 0
  | streamMetrics .. => 0

/-- No `SendMetrics` without an agent id carries metrics. -/
def Counted : Rpc → Prop
  | sendMetrics _ request => request.agentId = "" → request.metrics = []
  | streamMetrics .. => True

theorem counted_iff (rpc : Rpc) : rpc.Counted ↔ rpc.uncounted = 0 := by
  cases rpc with
  | streamMetrics => exact iff_of_true trivial rfl
  | sendMetrics call request =>
    show (request.agentId = "" → request.metrics = []) ↔
      (if request.agentId.isEmpty then request.metrics.length else 0) = 0
    rw [← String.isEmpty_iff]
    split
    · rename_i hempty
      rw [List.length_eq_zero_iff]
      exact ⟨fun h => h hempty, fun h _ => h⟩
    · rename_i hnamed
      exact iff_of_true (fun hempty => absurd hempty hnamed) rfl

/-- **The counters behind a call.** -/
theorem counters (c : Ingest σ) (rpc : Rpc) :
    (rpc.after exec produce c).service.receivedMetrics + rpc.uncounted + c.service.rejectedMetrics =
      c.service.receivedMetrics + (rpc.after exec produce c).service.rejectedMetrics +
        (rpc.response exec produce c).acceptedCount := by
  cases rpc with
  | sendMetrics call request =>
    unfold after uncounted response Ingest.sendMetrics
    dsimp only
    split
    · show c.service.receivedMetrics + request.metrics.length + c.service.rejectedMetrics =
        c.service.receivedMetrics + (c.service.rejectedMetrics + request.metrics.length) + 0
      omega
    split
    · rfl
    · have hservice := fun svc => Ingest.ingestBatch_service exec produce { c with service := svc } call request
      split
      · dsimp only
        rw [hservice]
        show c.service.receivedMetrics + request.metrics.length + 0 + c.service.rejectedMetrics =
          c.service.receivedMetrics + c.service.rejectedMetrics + request.metrics.length
        omega
      · dsimp only
        rw [hservice]
        show c.service.receivedMetrics + request.metrics.length + 0 + c.service.rejectedMetrics =
          c.service.receivedMetrics + (c.service.rejectedMetrics + request.metrics.length) + 0
        omega
  | streamMetrics calls header nowMs metrics =>
    unfold after uncounted response
    dsimp only
    cases hagent : (header.getD "").isEmpty with
    | true =>
      unfold Ingest.streamMetrics
      dsimp only
      rw [if_pos hagent]
      show c.service.receivedMetrics + metrics.length + 0 + c.service.rejectedMetrics =
        c.service.receivedMetrics + (c.service.rejectedMetrics + metrics.length) + 0
      omega
    | false =>
      obtain ⟨ok, st, heq, hsettled⟩ := Ingest.streamMetrics_settled exec produce c calls nowMs metrics hagent
      have htotal : st.accepted + st.rejected = metrics.length := hsettled.accounted.total
      have hreceived := hsettled.received
      have hcounted := hsettled.counted
      rw [heq]
      show st.collector.service.receivedMetrics + 0 + c.service.rejectedMetrics =
        c.service.receivedMetrics + (st.collector.service.rejectedMetrics + st.rejected) + st.accepted
      omega

end Rpc

/-- The service and the responses it has given. -/
structure Ledger (σ : Type) where
  collector : Ingest σ
  responses : List MetricsResponse := []

namespace Ledger

/-- The service with its counters at zero. -/
def new (c : Ingest σ) : Ledger σ :=
  { collector := { c with service := { mode := c.service.mode, skewThresholdMs := c.service.skewThresholdMs
                                       backpressureThresholdMs := c.service.backpressureThresholdMs } } }

def step (l : Ledger σ) (rpc : Rpc) : Option (Ledger σ) :=
  some { collector := rpc.after exec produce l.collector
         responses := l.responses ++ [rpc.response exec produce l.collector] }

/-- The metrics received are those rejected and those accepted. -/
def Balanced (l : Ledger σ) : Prop :=
  l.collector.service.receivedMetrics =
    l.collector.service.rejectedMetrics + (l.responses.map (·.acceptedCount)).sum

instance (l : Ledger σ) : Decidable (Balanced l) := inferInstanceAs (Decidable (_ = _))

/-- A call keeps the balance exactly when it counts what it rejects. -/
theorem balanced_step {l l' : Ledger σ} {rpc : Rpc} (hl : Balanced l) (h : l.step exec produce rpc = some l') :
    Balanced l' ↔ rpc.Counted := by
  have hcounters := rpc.counters exec produce l.collector
  unfold Balanced at hl ⊢
  cases h
  rw [Rpc.counted_iff, List.map_append, List.sum_append, List.map_singleton, List.sum_singleton]
  dsimp only
  omega

/-- **The counters.** At every call boundary of a run the metrics received are those rejected and those accepted,
exactly when no `SendMetrics` without an agent id carries metrics. -/
theorem balanced_iff (c : Ingest σ) (run : List Rpc) :
    Always (step exec produce) (fun l => Balanced l ∧
        l.collector.service.rejectedMetrics ≤ l.collector.service.receivedMetrics) (.new c) run ↔
      ∀ rpc ∈ run, rpc.Counted := by
  have hle : ∀ l : Ledger σ, Balanced l ∧
      l.collector.service.rejectedMetrics ≤ l.collector.service.receivedMetrics ↔ Balanced l := by
    intro l
    refine and_iff_left_of_imp fun h => ?_
    unfold Balanced at h
    omega
  simp only [hle]
  have hiff : Always (step exec produce) Balanced (.new c) run ↔
      Guarded (step exec produce) (fun _ rpc => rpc.Counted) (.new c) run :=
    always_iff_guarded (fun _ _ _ _ _ => trivial) (fun l rpc l' _ hl h => balanced_step exec produce hl h) trivial rfl
  exact hiff.trans (guarded_iff_forall fun l rpc => ⟨_, rfl⟩)

/-- One metric without an agent id: one rejected, none received. -/
theorem unnamed_metrics_unbalanced :
    let c : Ingest Unit := { service := { mode := .kafka }, world := () }
    let send : Rpc := .sendMetrics { } { metrics := [{ target := "dns" }] }
    let step := Ledger.step (fun _ db => (true, db)) none
    ((step (.new c) send).map fun l => (l.collector.service.receivedMetrics, l.collector.service.rejectedMetrics)) =
        some (0, 1) ∧
      ¬Always step (fun l => Balanced l ∧
        l.collector.service.rejectedMetrics ≤ l.collector.service.receivedMetrics) (.new c) [send] := by
  decide

end Ledger

end PudimNetMon.Collector
