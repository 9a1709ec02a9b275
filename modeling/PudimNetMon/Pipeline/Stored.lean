import PudimNetMon.Collector.Retry
import PudimNetMon.Collector.StreamMetrics

/-!
# What a call of the service leaves in `network_metrics`

`Exchange` is one `SendBatch` or `StreamMetrics` of an agent (`metrics_client.cpp`) with all that may happen to it: the
request or a part of the stream is lost, the database is away, refuses a statement or loses its answer, the reply is
lost. The batch may have any length.

- `insertMetrics_verdict`: an insert writes the rows of its first statement or nothing, and one that succeeds had no
  second statement;
- `Exchange.run_spec`: a call writes the rows of what has arrived from the first one on, at the times that the collector
  read for them; an acknowledged one writes a row for each of its metrics.
-/

namespace PudimNetMon.Pipeline

open Collector Storage

/-! ## One insert -/

section Insert

variable {storage : TimescaleStorage} {agentId : String} {base : Int64} {ms : List Metric} {t : NetworkMetrics}

/-- What a broken statement does. -/
theorem execVerdict_bare (verdict : Sql → Verdict) {sql : Sql} (t : NetworkMetrics) (h : parseInsert sql = none) :
    execVerdict verdict sql t = (false, t) := by
  simp [execVerdict, h]

/-- What a well-formed statement does. -/
theorem execVerdict_rows (verdict : Sql → Verdict) {rows : List MetricRow} (t : NetworkMetrics) (h : rows ≠ []) :
    execVerdict verdict (insertSql rows) t = (decide (verdict (insertSql rows) = .done),
      if verdict (insertSql rows) = .refused then t else t.insertAll rows) := by
  unfold execVerdict
  rw [parseInsert_insertSql h]
  cases verdict (insertSql rows) <;> rfl

/-- Metrics that follow a flush fail, and leave the table alone. -/
theorem insertLoop_bare_table (verdict : Sql → Verdict) {st : InsertState NetworkMetrics} (hms : ms ≠ [])
    (h : Holds [] [] st) :
    (insertLoop (execVerdict verdict) storage.batchSize agentId base ms st).1 = false ∧
      (insertLoop (execVerdict verdict) storage.batchSize agentId base ms st).2.db = st.db := by
  have hchunk := one_le_chunk storage
  have hbare : ∀ {part : List Metric}, part ≠ [] →
      (flush (execVerdict verdict) (part.foldl (appendRow agentId base) st)).1 = false ∧
        (flush (execVerdict verdict) (part.foldl (appendRow agentId base) st)).2.db = st.db := by
    intro part hpart
    have hp := h.foldl_appendRow agentId base part
    obtain ⟨-, -, -, hdb⟩ := foldl_appendRow_rest agentId base part st
    obtain ⟨m, part, rfl⟩ := List.exists_cons_of_ne_nil hpart
    have hexec : execVerdict verdict ((List.foldl (appendRow agentId base) st (m :: part)).sql ++ [.onConflict])
        (List.foldl (appendRow agentId base) st (m :: part)).db = (false, st.db) := by
      rw [execVerdict_bare verdict _ (by rw [hp.sql]; exact parseInsert_headless (by simp [rowsFrom, joinRows])), hdb]
    rw [flush_rows (by rw [hp.batchRows]; simp [rowsFrom]), hexec]
    exact ⟨rfl, rfl⟩
  have hb : st.batchRows = 0 := h.batchRows
  by_cases hle : ms.length ≤ storage.chunk
  · rw [insertLoop_fits hms (by omega)]
    exact hbare hms
  · have htake : ms.take storage.chunk ≠ [] := by
      simp only [ne_eq, List.take_eq_nil_iff, hms, or_false]
      omega
    rw [← List.take_append_drop storage.chunk ms, insertLoop_chunk htake (by rw [List.length_take]; omega),
      (hbare htake).1]
    exact ⟨rfl, (hbare htake).2⟩

/-- Of a list that does not fit one statement the first statement is carried out or nothing is. -/
theorem insertMetrics_large_table (verdict : Sql → Verdict) (h : storage.chunk < ms.length) :
    (insertMetrics (execVerdict verdict) true storage t agentId base ms).2.2 =
      if verdict (insertSql (rowsFrom agentId base 0 (ms.take storage.chunk))) = .refused then t
      else t.insertAll (rowsFrom agentId base 0 (ms.take storage.chunk)) := by
  have hchunk := one_le_chunk storage
  have htake : ms.take storage.chunk ≠ [] := by
    simp only [ne_eq, List.take_eq_nil_iff]
    rintro (h' | rfl)
    · omega
    · simp at h
  have hdrop : ms.drop storage.chunk ≠ [] := by
    simp only [ne_eq, List.drop_eq_nil_iff]
    omega
  -- the first flush finds the prefix and the rows of the first chunk
  have hold := (holds_start storage t).foldl_appendRow agentId base (ms.take storage.chunk)
  obtain ⟨-, -, -, hdb⟩ := foldl_appendRow_rest agentId base (ms.take storage.chunk) (startState storage t)
  have hflush := @flush_rows _ (execVerdict verdict)
    ((ms.take storage.chunk).foldl (appendRow agentId base) (startState storage t))
    (by rw [foldl_batchRows, List.length_take]; omega)
  have hsql : ((ms.take storage.chunk).foldl (appendRow agentId base) (startState storage t)).sql ++ [.onConflict] =
      insertSql (rowsFrom agentId base 0 (ms.take storage.chunk)) := by
    rw [hold.sql]
    rfl
  rw [hsql, hdb] at hflush
  have hloop : (insertMetrics (execVerdict verdict) true storage t agentId base ms).2.2 =
      (insertLoop (execVerdict verdict) storage.batchSize agentId base ms (startState storage t)).2.db := by
    unfold insertMetrics
    rw [if_pos rfl]
    dsimp only
    split <;> rfl
  have hsplit := @insertLoop_chunk _ (execVerdict verdict) (startState storage t) storage agentId base
    (ms.take storage.chunk) (ms.drop storage.chunk) htake (by rw [List.length_take]; simp; omega)
  rw [List.take_append_drop] at hsplit
  rw [hloop, hsplit, hflush, show (startState storage t).db = t from rfl, execVerdict_rows verdict t
    (rowsFrom_ne_nil htake)]
  by_cases hdone : verdict (insertSql (rowsFrom agentId base 0 (ms.take storage.chunk))) = .done
  · -- the statements behind it have lost their prefix
    simp only [hdone, decide_true, if_true]
    exact (insertLoop_bare_table verdict hdrop ⟨rfl, rfl, rfl⟩).2
  · simp [hdone]

/-- **One insert**, of any length: the rows of its first statement are written or nothing is, and a list that goes
through fits that statement. -/
theorem insertMetrics_verdict (verdict : Sql → Verdict) (connected : Bool) (storage : TimescaleStorage)
    (t : NetworkMetrics) (agentId : String) (base : Int64) (ms : List Metric) :
    let inserted := insertMetrics (execVerdict verdict) connected storage t agentId base ms
    let head := rowsFrom agentId base 0 (ms.take storage.chunk)
    (inserted.2.2 = t.insertAll head ∨ inserted.2.2 = t) ∧
      (inserted.1 = true → ms.length ≤ storage.chunk ∧ inserted.2.2 = t.insertAll head) := by
  intro inserted head
  cases connected with
  | false => exact ⟨.inr rfl, nofun⟩
  | true =>
    by_cases hms : ms = []
    · subst hms
      exact ⟨.inr rfl, fun _ => ⟨Nat.zero_le _, by simp [head, rowsFrom]; rfl⟩⟩
    by_cases hfit : ms.length ≤ storage.chunk
    · obtain ⟨hok, htable⟩ := @insertMetrics_execVerdict verdict storage t agentId base ms hms hfit
      have hhead : rowsFrom agentId base 0 ms = head := by simp only [head, List.take_of_length_le hfit]
      rw [hhead] at hok htable
      by_cases hv : verdict (insertSql head) = .refused
      · rw [if_pos hv] at htable
        refine ⟨.inr htable, fun hyes => ?_⟩
        rw [show inserted.1 = _ from hok, hv] at hyes
        exact absurd hyes (by decide)
      · rw [if_neg hv] at htable
        exact ⟨.inl htable, fun _ => ⟨hfit, htable⟩⟩
    · have hlt := Nat.lt_of_not_le hfit
      have hfail : inserted.1 = false := insertMetrics_large storage t agentId base
        (fun sql db hsql => by rw [execVerdict_bare verdict db hsql]) hlt
      refine ⟨?_, fun hyes => absurd (hfail.symm.trans hyes) (by decide)⟩
      have htable := @insertMetrics_large_table storage agentId base ms t verdict hlt
      split at htable
      · exact .inr htable
      · exact .inl htable

end Insert

/-! ## What is written of some rows -/

/-- The table was given rows from the first of these on, and all of them when `ok` says so. -/
def Given (rows : List MetricRow) (ok : Bool) (t t' : NetworkMetrics) : Prop :=
  ∃ given, given <+: rows ∧ (ok = true → given = rows) ∧ t' = t.insertAll given

section Table

variable {t t' t'' : NetworkMetrics} {rows rows' : List MetricRow} {ok : Bool}

theorem Given.none (rows : List MetricRow) (t : NetworkMetrics) : Given rows false t t :=
  ⟨[], List.nil_prefix, nofun, (KeyedTable.insertAll_nil t).symm⟩

theorem Given.nil (ok : Bool) (t : NetworkMetrics) : Given [] ok t t :=
  ⟨[], List.nil_prefix, fun _ => rfl, (KeyedTable.insertAll_nil t).symm⟩

/-- Rows that were all written, and some behind them. -/
theorem Given.append (h : t' = t.insertAll rows) (h' : Given rows' ok t' t'') : Given (rows ++ rows') ok t t'' := by
  obtain ⟨given, hfront, hok, rfl⟩ := h'
  refine ⟨rows ++ given, (List.prefix_append_right_inj rows).2 hfront, fun hyes => by rw [hok hyes], ?_⟩
  rw [h, KeyedTable.insertAll_append]

/-- Of more rows some are written, too. -/
theorem Given.extend (h : Given rows ok t t') (hfront : rows <+: rows') : Given rows' false t t' := by
  obtain ⟨given, hgiven, -, rfl⟩ := h
  exact ⟨given, hgiven.trans hfront, nofun, rfl⟩

/-- A caller that sees less has no more to rely on. -/
theorem Given.weaken {ok' : Bool} (h : Given rows ok t t') (hle : ok' = true → ok = true) : Given rows ok' t t' := by
  obtain ⟨given, hgiven, hok, rfl⟩ := h
  exact ⟨given, hgiven, fun hyes => hok (hle hyes), rfl⟩

theorem Given.all (h : Given rows true t t') : t' = t.insertAll rows := by
  obtain ⟨given, -, hok, rfl⟩ := h
  rw [hok rfl]

theorem rowsFrom_take (agentId : String) (base : Int64) : ∀ (k n : Nat) (ms : List Metric),
    rowsFrom agentId base k (ms.take n) <+: rowsFrom agentId base k ms
  | _, 0, _ => List.nil_prefix
  | _, _ + 1, [] => List.nil_prefix
  | k, n + 1, _ :: ms => List.cons_prefix_cons.2 ⟨rfl, rowsFrom_take agentId base (k + 1) n ms⟩

/-- An insert writes its rows from the first one on, and one that goes through writes all of them. -/
theorem insertMetrics_given (verdict : Sql → Verdict) (connected : Bool) (storage : TimescaleStorage)
    (t : NetworkMetrics) (agentId : String) (base : Int64) (ms : List Metric) :
    let inserted := insertMetrics (execVerdict verdict) connected storage t agentId base ms
    Given (rowsFrom agentId base 0 ms) inserted.1 t inserted.2.2 := by
  intro inserted
  obtain ⟨htable, hok⟩ := insertMetrics_verdict verdict connected storage t agentId base ms
  cases hyes : inserted.1 with
  | true =>
    obtain ⟨hfit, htable⟩ := hok hyes
    rw [List.take_of_length_le hfit] at htable
    exact ⟨_, List.prefix_rfl, fun _ => rfl, htable⟩
  | false =>
    rcases htable with htable | htable
    · exact ⟨_, rowsFrom_take agentId base 0 storage.chunk ms, nofun, htable⟩
    · rw [show inserted.2.2 = t from htable]
      exact Given.none ..

end Table

/-! ## The rows of a stream -/

section Chunks

variable (agentId : String) (calls : Nat → IngestCall) (ms : List Metric)

/-- The rows of the first chunks of a stream, each under the clock that its ingest reads. -/
def rowsUpTo (k : Nat) : List MetricRow :=
  (List.range k).flatMap fun j =>
    rowsFrom agentId (calls j).ingestMs 0 ((ms.drop (kFlushThreshold * j)).take kFlushThreshold)

def streamRows : List MetricRow := rowsUpTo agentId calls ms (ms.length / kFlushThreshold + 1)

variable {agentId calls ms}

theorem rowsUpTo_succ (k : Nat) : rowsUpTo agentId calls ms (k + 1) = rowsUpTo agentId calls ms k ++
    rowsFrom agentId (calls k).ingestMs 0 ((ms.drop (kFlushThreshold * k)).take kFlushThreshold) := by
  simp [rowsUpTo, List.range_succ]

theorem rowsUpTo_prefix (k n : Nat) : rowsUpTo agentId calls ms k <+: rowsUpTo agentId calls ms (k + n) := by
  induction n with
  | zero => exact List.prefix_rfl
  | succ n ih =>
    rw [← Nat.add_assoc, rowsUpTo_succ]
    exact ih.trans (List.prefix_append _ _)

/-- Behind the end of the stream there are no more rows. -/
theorem rowsUpTo_add {k : Nat} (h : ms.length ≤ kFlushThreshold * k) (n : Nat) :
    rowsUpTo agentId calls ms (k + n) = rowsUpTo agentId calls ms k := by
  induction n with
  | zero => rfl
  | succ n ih =>
    have hempty : ms.drop (kFlushThreshold * (k + n)) = [] := by
      apply List.drop_eq_nil_iff.2
      rw [Nat.mul_add]
      omega
    rw [← Nat.add_assoc, rowsUpTo_succ, ih, hempty]
    simp [rowsFrom]

theorem rowsUpTo_eq {k : Nat} (h : ms.length ≤ kFlushThreshold * k) :
    rowsUpTo agentId calls ms k = streamRows agentId calls ms := by
  have hlast : ms.length ≤ kFlushThreshold * (ms.length / kFlushThreshold + 1) := by
    unfold kFlushThreshold
    omega
  rw [streamRows, ← rowsUpTo_add h (ms.length / kFlushThreshold + 1), Nat.add_comm, rowsUpTo_add hlast]

theorem rowsUpTo_prefix_all (k : Nat) : rowsUpTo agentId calls ms k <+: streamRows agentId calls ms := by
  have hlast : ms.length ≤ kFlushThreshold * (k + ms.length) := by
    unfold kFlushThreshold
    omega
  rw [← rowsUpTo_eq hlast]
  exact rowsUpTo_prefix k ms.length

/-- One row for each metric, in order. -/
theorem streamRows_content : (streamRows agentId calls ms).map contentOf = ms.map (metricRow agentId 0) := by
  have hupTo : ∀ k, (rowsUpTo agentId calls ms k).map contentOf =
      (ms.take (kFlushThreshold * k)).map (metricRow agentId 0) := by
    intro k
    induction k with
    | zero => simp [rowsUpTo]
    | succ k ih =>
      rw [rowsUpTo_succ, List.map_append, ih, contentOf_rowsFrom, Nat.mul_succ, List.take_add, List.map_append]
  have hlast : ms.length ≤ kFlushThreshold * (ms.length / kFlushThreshold + 1) := by
    unfold kFlushThreshold
    omega
  rw [streamRows, hupTo, List.take_of_length_le hlast]

end Chunks

/-! ## One call -/

/-- What may happen to a call of the agent's client. -/
structure Exchange where
  /-- The call reaches the collector; of a stream, the metrics up to the one of this number. -/
  delivered : Bool := true
  read : Nat
  calls : Nat → IngestCall := fun _ => { }
  nowMs : Int := 0
  verdict : Sql → Verdict := fun _ => .done
  /-- The reply reaches the agent. -/
  replied : Bool := true

namespace Exchange

/-- `SendBatch` of a batch, or `StreamMetrics` of its metrics under its agent id: the result at the agent and the
collector behind it. -/
def run (x : Exchange) (stream : Bool) (c : Ingest NetworkMetrics) (batch : MetricsBatch) :
    Bool × Ingest NetworkMetrics :=
  if !x.delivered then (false, c)
  else if stream then
    let streamed := c.streamMetrics (execVerdict x.verdict) none x.calls (some batch.agentId) x.nowMs
      (batch.metrics.take x.read)
    (x.replied && decide (batch.metrics.length ≤ x.read) && decide (streamed.status.code = .ok) && streamed.response.ack,
      streamed.collector)
  else
    let sent := c.sendMetrics (execVerdict x.verdict) none (x.calls 0) batch
    (x.replied && sent.response.ack, sent.collector)

/-- The metrics that reach the collector. -/
def received (x : Exchange) (stream : Bool) (batch : MetricsBatch) : List Metric :=
  if !x.delivered then [] else if stream then batch.metrics.take x.read else batch.metrics

/-- A row for each of them, under the clock that the collector reads for its insert. -/
def rows (x : Exchange) (stream : Bool) (batch : MetricsBatch) : List MetricRow :=
  if stream then streamRows batch.agentId x.calls (x.received stream batch)
  else rowsFrom batch.agentId (x.calls 0).ingestMs 0 (x.received stream batch)

theorem rows_content (x : Exchange) (stream : Bool) (batch : MetricsBatch) :
    (x.rows stream batch).map contentOf = (x.received stream batch).map (metricRow batch.agentId 0) := by
  unfold rows
  split
  · exact streamRows_content
  · exact contentOf_rowsFrom ..

end Exchange

section Call

variable {c : Ingest NetworkMetrics} {agentId : String} {ms : List Metric}

theorem ingestBatch_given (verdict : Sql → Verdict) (call : IngestCall) (batch : MetricsBatch)
    (h : c.service.mode = .direct) :
    let ingested := c.ingestBatch (execVerdict verdict) none call batch
    ingested.2.service.mode = .direct ∧
      Given (rowsFrom batch.agentId call.ingestMs 0 batch.metrics) ingested.1 c.world ingested.2.world := by
  intro ingested
  obtain ⟨hok, hsvc, -, hworld⟩ := @Ingest.ingestBatch_direct _ (execVerdict verdict) none c call batch h
  have hgiven := insertMetrics_given verdict call.connected c.storage c.world batch.agentId call.ingestMs batch.metrics
  dsimp only at hgiven
  rw [← hok, ← hworld] at hgiven
  exact ⟨(congrArg (·.mode) hsvc).trans h, hgiven⟩

/-- `SendMetrics`. -/
theorem sendMetrics_given (verdict : Sql → Verdict) (call : IngestCall) (batch : MetricsBatch)
    (h : c.service.mode = .direct) :
    let sent := c.sendMetrics (execVerdict verdict) none call batch
    sent.collector.service.mode = .direct ∧
      Given (rowsFrom batch.agentId call.ingestMs 0 batch.metrics) sent.response.ack c.world sent.collector.world := by
  intro sent
  obtain ⟨hmode, hsent⟩ := @Ingest.sendMetrics_direct _ (execVerdict verdict) none c call batch h
  have hgiven := insertMetrics_given verdict call.connected c.storage c.world batch.agentId call.ingestMs batch.metrics
  refine ⟨hmode, ?_⟩
  by_cases hguard : batch.agentId.isEmpty = false ∧ batch.metrics ≠ []
  · rw [if_pos hguard] at hsent
    obtain ⟨hack, -, hworld⟩ := hsent
    dsimp only at hgiven
    rwa [← hack, ← hworld] at hgiven
  · rw [if_neg hguard] at hsent
    obtain ⟨hack, -, hworld⟩ := hsent
    rw [show sent.collector.world = c.world from hworld]
    cases hagent : batch.agentId.isEmpty with
    | true =>
      rw [show sent.response.ack = _ from hack, hagent]
      exact Given.none ..
    | false =>
      have hms : batch.metrics = [] := by
        by_contra hne
        exact hguard ⟨hagent, hne⟩
      rw [hms]
      exact Given.nil ..

/-- The loop over a stream: the chunks so far are written, and the batch is less than one. -/
structure Reading (agentId : String) (calls : Nat → IngestCall) (ms : List Metric) (t : NetworkMetrics)
    (st : Streaming NetworkMetrics) (rest : List Metric) : Prop where
  mode : st.collector.service.mode = .direct
  agent : st.batch.agentId = agentId
  short : st.batch.metrics.length < kFlushThreshold
  left : st.batch.metrics ++ rest = ms.drop (kFlushThreshold * st.ingested.length)
  table : st.collector.world = t.insertAll (rowsUpTo agentId calls ms st.ingested.length)

variable {calls : Nat → IngestCall} {t : NetworkMetrics} {st : Streaming NetworkMetrics}

/-- A flush of the next chunk. -/
theorem flush_given (verdict : Sql → Verdict) (hmode : st.collector.service.mode = .direct)
    (hagent : st.batch.agentId = agentId) (hne : st.batch.metrics ≠ [])
    (hchunk : st.batch.metrics = (ms.drop (kFlushThreshold * st.ingested.length)).take kFlushThreshold)
    (htable : st.collector.world = t.insertAll (rowsUpTo agentId calls ms st.ingested.length)) :
    let flushed := st.flush (execVerdict verdict) none calls
    flushed.2.collector.service.mode = .direct ∧ flushed.2.batch.agentId = agentId ∧ flushed.2.batch.metrics = [] ∧
      flushed.2.ingested.length = st.ingested.length + 1 ∧
      Given (rowsUpTo agentId calls ms (st.ingested.length + 1)) flushed.1 t flushed.2.collector.world := by
  intro flushed
  have hlength : ¬st.batch.metrics.length = 0 := fun h => hne (List.eq_nil_of_length_eq_zero h)
  obtain ⟨hmode', hgiven⟩ := ingestBatch_given verdict (calls st.ingested.length) st.batch hmode
  have hboth := Given.append htable hgiven
  rw [hagent, hchunk, ← rowsUpTo_succ] at hboth
  simp only [flushed, Streaming.flush, hlength, if_false]
  exact ⟨hmode', hagent, trivial, by simp, hboth⟩

/-- The loop over a stream: it ends with all chunks written, or behind one that was not. -/
theorem Reading.readLoop (verdict : Sql → Verdict) (rest : List Metric) {st : Streaming NetworkMetrics}
    (h : Reading agentId calls ms t st rest) :
    let read := Streaming.readLoop (execVerdict verdict) none calls st rest
    (read.1 = true ∧ Reading agentId calls ms t read.2 []) ∨
      (read.1 = false ∧ read.2.collector.service.mode = .direct ∧
        Given (streamRows agentId calls ms) false t read.2.collector.world) := by
  induction rest generalizing st with
  | nil => exact .inl ⟨rfl, h⟩
  | cons m rest ih =>
    intro read
    have hreceived : (st.receive m).batch.metrics = st.batch.metrics ++ [m] := rfl
    have hleft : (st.receive m).batch.metrics ++ rest = ms.drop (kFlushThreshold * st.ingested.length) := by
      rw [← h.left, hreceived, List.append_assoc]
      rfl
    have hshort := h.short
    by_cases hfull : (st.receive m).batch.metrics.length ≥ kFlushThreshold
    · have hlength : (st.receive m).batch.metrics.length = kFlushThreshold := by
        rw [hreceived, List.length_append, List.length_singleton] at hfull ⊢
        omega
      have hchunk : (st.receive m).batch.metrics =
          (ms.drop (kFlushThreshold * (st.receive m).ingested.length)).take kFlushThreshold := by
        show _ = (ms.drop (kFlushThreshold * st.ingested.length)).take kFlushThreshold
        rw [← hleft, ← hlength, List.take_left]
      have hne : (st.receive m).batch.metrics ≠ [] := by simp [hreceived]
      obtain ⟨hmode, hagent, hbatch, hcount, hgiven⟩ :=
        @flush_given agentId ms calls t (st.receive m) verdict h.mode h.agent hne hchunk h.table
      cases hflush : ((st.receive m).flush (execVerdict verdict) none calls).1 with
      | false =>
        have hread : read = (false, ((st.receive m).flush (execVerdict verdict) none calls).2.drain rest) := by
          simp only [read, Streaming.readLoop, hfull, if_true, hflush, Bool.not_false]
        rw [hread]
        exact .inr ⟨rfl, hmode, hgiven.extend (rowsUpTo_prefix_all _)⟩
      | true =>
        have hread : read = Streaming.readLoop (execVerdict verdict) none calls
            ((st.receive m).flush (execVerdict verdict) none calls).2 rest := by
          simp only [read, Streaming.readLoop, hfull, if_true, hflush, Bool.not_true, Bool.false_eq_true, if_false]
        rw [hread]
        rw [hflush] at hgiven
        refine ih ⟨hmode, hagent, by rw [hbatch]; decide, ?_, ?_⟩
        · show _ ++ rest = _
          rw [hbatch, hcount, Nat.mul_succ, ← List.drop_drop, List.nil_append]
          show rest = (ms.drop (kFlushThreshold * st.ingested.length)).drop kFlushThreshold
          rw [← hleft, ← hlength, List.drop_left]
        · rw [hcount]
          exact hgiven.all
    · have hread : read = Streaming.readLoop (execVerdict verdict) none calls (st.receive m) rest := by
        simp only [read, Streaming.readLoop, hfull, if_false]
      rw [hread]
      exact ih ⟨h.mode, h.agent, by omega, hleft, h.table⟩

/-- `StreamMetrics`. -/
theorem streamMetrics_given (verdict : Sql → Verdict) (calls : Nat → IngestCall) (agentId : String) (nowMs : Int)
    (ms : List Metric) (h : c.service.mode = .direct) :
    let streamed := c.streamMetrics (execVerdict verdict) none calls (some agentId) nowMs ms
    streamed.collector.service.mode = .direct ∧
      Given (streamRows agentId calls ms) streamed.response.ack c.world streamed.collector.world := by
  intro streamed
  by_cases hagent : agentId.isEmpty = true
  · simp only [streamed, Ingest.streamMetrics, Option.getD_some, hagent, if_true]
    exact ⟨h, Given.none ..⟩
  let st : Streaming NetworkMetrics := .start { c with service := { c.service with
    batchesReceived := c.service.batchesReceived + 1 } } agentId nowMs
  have hstart : Reading agentId calls ms c.world st ms :=
    ⟨h, rfl, show 0 < kFlushThreshold by decide, rfl, (KeyedTable.insertAll_nil _).symm⟩
  have hloop := hstart.readLoop verdict ms
  have hstreamed : streamed =
      let read := Streaming.readLoop (execVerdict verdict) none calls st ms
      if !read.1 then read.2.respond false
      else if read.2.batch.metrics.length > 0 then
        (read.2.flush (execVerdict verdict) none calls).2.respond (read.2.flush (execVerdict verdict) none calls).1
      else read.2.respond true := by
    simp only [streamed, Ingest.streamMetrics, Option.getD_some, hagent, Bool.false_eq_true, if_false, st]
  rw [hstreamed]
  generalize Streaming.readLoop (execVerdict verdict) none calls st ms = read at hloop
  obtain ⟨ok, st'⟩ := read
  rcases hloop with ⟨rfl, hread⟩ | ⟨rfl, hmode, hgiven⟩
  · have hread : Reading agentId calls ms c.world st' [] := hread
    have hleft := hread.left
    rw [List.append_nil] at hleft
    by_cases hempty : st'.batch.metrics.length > 0
    · -- the last chunk is what is left
      have hchunk : st'.batch.metrics = (ms.drop (kFlushThreshold * st'.ingested.length)).take kFlushThreshold := by
        rw [← hleft, List.take_of_length_le (Nat.le_of_lt hread.short)]
      obtain ⟨hmode, -, -, -, hgiven⟩ := flush_given verdict hread.mode hread.agent
        (List.ne_nil_of_length_pos hempty) hchunk hread.table
      have hlast : ms.length ≤ kFlushThreshold * (st'.ingested.length + 1) := by
        have hlength := congrArg List.length hleft
        have hshort := hread.short
        rw [List.length_drop] at hlength
        rw [Nat.mul_succ]
        omega
      rw [rowsUpTo_eq hlast] at hgiven
      simp only [Bool.not_true, Bool.false_eq_true, if_false, hempty, if_true]
      exact ⟨hmode, hgiven⟩
    · have hnil : ms.drop (kFlushThreshold * st'.ingested.length) = [] := by
        rw [← hleft]
        exact List.eq_nil_of_length_eq_zero (Nat.eq_zero_of_not_pos hempty)
      have htable := hread.table
      rw [rowsUpTo_eq (List.drop_eq_nil_iff.1 hnil)] at htable
      simp only [Bool.not_true, Bool.false_eq_true, if_false, hempty]
      exact ⟨hread.mode, _, List.prefix_rfl, fun _ => rfl, htable⟩
  · exact ⟨hmode, hgiven⟩

/-- **One call.** Of the rows of what has arrived the table was given some, from the first one on; behind an
acknowledged call everything has arrived, and the table was given all of it. -/
theorem Exchange.run_spec (x : Exchange) (stream : Bool) (batch : MetricsBatch) (h : c.service.mode = .direct) :
    (x.run stream c batch).2.service.mode = .direct ∧
      Given (x.rows stream batch) (x.run stream c batch).1 c.world (x.run stream c batch).2.world ∧
      ((x.run stream c batch).1 = true → x.received stream batch = batch.metrics) := by
  unfold Exchange.run Exchange.rows Exchange.received
  cases x.delivered with
  | false =>
    simp only [Bool.not_false, if_true]
    exact ⟨h, Given.none .., nofun⟩
  | true =>
    cases stream with
    | true =>
      obtain ⟨hmode, hgiven⟩ := streamMetrics_given x.verdict x.calls batch.agentId x.nowMs (batch.metrics.take x.read) h
      simp only [Bool.not_true, Bool.false_eq_true, if_false, if_true]
      refine ⟨hmode, hgiven.weaken fun hok => (Bool.and_eq_true_iff.1 hok).2, fun hok => ?_⟩
      simp only [Bool.and_eq_true, decide_eq_true_eq] at hok
      exact List.take_of_length_le hok.1.1.2
    | false =>
      obtain ⟨hmode, hgiven⟩ := sendMetrics_given x.verdict (x.calls 0) batch h
      simp only [Bool.not_true, Bool.false_eq_true, if_false]
      exact ⟨hmode, hgiven.weaken fun hok => (Bool.and_eq_true_iff.1 hok).2, fun _ => trivial⟩

end Call

end PudimNetMon.Pipeline
