import PudimNetMon.Kafka.Consumer
import PudimNetMon.Pipeline.Stored

/-!
# The storage consumer (`storage_consumer.cpp`)

`ConsumeLoop` with `InsertMetrics` under the batch's own timestamp as its handler, on one table. A message may be
delivered any number of times: behind a crash, a rebalance, a lost answer of the database or a failed commit.

- `redelivery_harmless`: however often messages are redelivered, the table is what writing each message that took
  effect once, in the order of first effect, makes of it; and a committed message is among them when no commit passes a
  failed one.
-/

namespace PudimNetMon.Kafka

open Collector Storage Pipeline

structure StorageConsumer where
  consumer : State
  storage : TimescaleStorage := { }
  table : NetworkMetrics

inductive StorageEvent
  | consume (p : Nat)
  | noMessage (error : Bool)
  /-- The message is parsed and inserted; what the connection and the server do with the insert. -/
  | handle (connected : Bool) (verdict : Sql → Verdict)
  | commit (ok : Bool)
  | restart
  | rebalance (p : Nat)

section

variable {Payload : Type} (parse : Payload → Option MetricsBatch) (log : Nat → Nat → Message Payload)

/-- The handler. -/
def insertBatch (s : StorageConsumer) (connected : Bool) (verdict : Sql → Verdict) (batch : MetricsBatch) :
    Bool × TimescaleStorage × NetworkMetrics :=
  insertMetrics (execVerdict verdict) connected s.storage s.table batch.agentId (Int64.ofInt batch.timestampUnixMs)
    batch.metrics

namespace StorageConsumer

def step (s : StorageConsumer) : StorageEvent → Option StorageConsumer
  | .consume p => (Kafka.step parse log s.consumer (.consume p)).map fun consumer => { s with consumer }
  | .noMessage error => (Kafka.step parse log s.consumer (.noMessage error)).map fun consumer => { s with consumer }
  | .handle connected verdict =>
    match s.consumer.pc with
    | .received p o =>
      match batchAt parse log p o with
      | none => some { s with consumer := handleMessage parse log s.consumer p o false }
      | some batch =>
        let (ok, storage, table) := insertBatch s connected verdict batch
        some { consumer := handleMessage parse log s.consumer p o ok, storage, table }
    | _ => none
  | .commit ok => (Kafka.step parse log s.consumer (.commit ok)).map fun consumer => { s with consumer }
  | .restart =>
    (Kafka.step parse log s.consumer .restart).map fun consumer => { s with consumer, storage := { } }
  | .rebalance p => (Kafka.step parse log s.consumer (.rebalance p)).map fun consumer => { s with consumer }

end StorageConsumer

/-- The event of the loop. -/
def StorageEvent.toEvent (s : StorageConsumer) : StorageEvent → Event
  | .consume p => .consume p
  | .noMessage error => .noMessage error
  | .handle connected verdict =>
    match s.consumer.pc with
    | .received p o =>
      match batchAt parse log p o with
      | none => .handle false
      | some batch => .handle (insertBatch s connected verdict batch).1
    | _ => .handle false
  | .commit ok => .commit ok
  | .restart => .restart
  | .rebalance p => .rebalance p

/-- A consumer at the given offsets. -/
def startStorage (offsets : Nat → Nat) (table : NetworkMetrics) : StorageConsumer :=
  { consumer := start offsets, table }

/-- The rows one effective insert of a message writes: a statement holds at most 500 rows. -/
def messageRows (x : Nat × Nat) : List MetricRow :=
  match batchAt parse log x.1 x.2 with
  | some batch => rowsFrom batch.agentId (Int64.ofInt batch.timestampUnixMs) 0 (batch.metrics.take 500)
  | none => []

/-- Each message that took effect has been written once, whatever the number of its deliveries. -/
def EffectivelyOnce (before : NetworkMetrics) (s : StorageConsumer) : Prop :=
  ∃ written : List (Nat × Nat), written.Nodup ∧ s.table = before.insertAll (written.flatMap (messageRows parse log)) ∧
    (∀ x ∈ written, s.consumer.outcome x.1 x.2 ≠ none) ∧
    ∀ p o batch, batchAt parse log p o = some batch → s.consumer.outcome p o = some true →
      (p, o) ∈ written ∧ batch.metrics.length ≤ 500

/-- The rows of a whole batch, from its own timestamp on. -/
def batchRows (batch : MetricsBatch) : List MetricRow :=
  rowsFrom batch.agentId (Int64.ofInt batch.timestampUnixMs) 0 batch.metrics

/-- A row of a message is in the table, or another one has its key: one that was there before, or a message's. -/
def RowStored (before : NetworkMetrics) (s : StorageConsumer) (r : MetricRow) : Prop :=
  r.key ∈ s.table.keys ∧ ((∀ r' ∈ before.rows, r'.key ≠ r.key) →
    (∀ x, ∀ r' ∈ messageRows parse log x, r'.key = r.key → r' = r) → r ∈ s.table.rows)

/-- A committed message is stored, whole. -/
def CommittedStored (offsets : Nat → Nat) (before : NetworkMetrics) (s : StorageConsumer) : Prop :=
  ∀ p o batch, offsets p ≤ o → o < s.consumer.committed p → batchAt parse log p o = some batch →
    ∀ r ∈ batchRows batch, RowStored parse log before s r

/-- A commit that takes effect finds no message that failed last between the committed offset and its own. -/
def StorageMeetsNoFailure (s : StorageConsumer) (e : StorageEvent) : Prop :=
  CommitMeetsNoFailure s.consumer (e.toEvent parse log s)

instance (s : StorageConsumer) (e : StorageEvent) : Decidable (StorageMeetsNoFailure parse log s e) :=
  inferInstanceAs (Decidable (CommitMeetsNoFailure s.consumer (e.toEvent parse log s)))

/-! ## What the consumer keeps -/

structure StorageInv (offsets : Nat → Nat) (before : NetworkMetrics) (s : StorageConsumer) : Prop where
  loop : Inv parse log offsets s.consumer
  chunk : s.storage.chunk = 500
  once : EffectivelyOnce parse log before s

variable {parse log} {offsets : Nat → Nat} {before : NetworkMetrics} {s s' : StorageConsumer}

/-- An event of the storage consumer is one of the loop. -/
theorem step_consumer {e : StorageEvent} (h : s.step parse log e = some s') :
    Kafka.step parse log s.consumer (e.toEvent parse log s) = some s'.consumer := by
  cases e with
  | handle connected verdict =>
    simp only [StorageConsumer.step] at h
    split at h
    · rename_i p o hpc
      cases hb : batchAt parse log p o with
      | none =>
        simp only [hb] at h
        cases h
        simp only [StorageEvent.toEvent, hpc, hb, Kafka.step]
      | some batch =>
        simp only [hb] at h
        cases h
        simp only [StorageEvent.toEvent, hpc, hb, Kafka.step]
    · cases h
  | consume p | noMessage error | commit ok =>
    obtain ⟨consumer, hc, rfl⟩ := Option.map_eq_some_iff.1 h
    exact hc
  | restart | rebalance p =>
    simp only [StorageConsumer.step, Kafka.step, Option.map_some] at h
    cases h
    rfl

/-- Only the handler touches the table or the outcomes. -/
theorem step_other {e : StorageEvent} (hne : ∀ connected verdict, e ≠ .handle connected verdict)
    (h : s.step parse log e = some s') :
    s'.table = s.table ∧ s'.consumer.outcome = s.consumer.outcome ∧ (s'.storage = s.storage ∨ s'.storage = { }) := by
  cases e with
  | handle connected verdict => exact absurd rfl (hne connected verdict)
  | consume p | noMessage error =>
    obtain ⟨consumer, hc, rfl⟩ := Option.map_eq_some_iff.1 h
    simp only [Kafka.step] at hc
    split at hc
    · first | (split at hc <;> cases hc) | cases hc
      all_goals exact ⟨rfl, rfl, .inl rfl⟩
    · cases hc
  | commit ok =>
    obtain ⟨consumer, hc, rfl⟩ := Option.map_eq_some_iff.1 h
    simp only [Kafka.step] at hc
    split at hc <;> cases hc
    exact ⟨rfl, rfl, .inl rfl⟩
  | restart =>
    simp only [StorageConsumer.step, Kafka.step, Option.map_some] at h
    cases h
    exact ⟨rfl, rfl, .inr rfl⟩
  | rebalance p =>
    simp only [StorageConsumer.step, Kafka.step, Option.map_some] at h
    cases h
    exact ⟨rfl, rfl, .inl rfl⟩

/-- An insert writes the rows of its message or nothing; one that succeeds has written them, and they were few. -/
theorem insertBatch_rows {batch : MetricsBatch} {p o : Nat} (hb : batchAt parse log p o = some batch)
    (hchunk : s.storage.chunk = 500) (connected : Bool) (verdict : Sql → Verdict) :
    let inserted := insertBatch s connected verdict batch
    (inserted.2.2 = s.table.insertAll (messageRows parse log (p, o)) ∨ inserted.2.2 = s.table ∧ inserted.1 = false) ∧
      (inserted.1 = true → batch.metrics.length ≤ 500) := by
  intro inserted
  obtain ⟨hwrites, hok⟩ := insertMetrics_verdict verdict connected s.storage s.table batch.agentId
    (Int64.ofInt batch.timestampUnixMs) batch.metrics
  have hrows : messageRows parse log (p, o) = rowsFrom batch.agentId (Int64.ofInt batch.timestampUnixMs) 0
      (batch.metrics.take s.storage.chunk) := by
    simp only [messageRows, hb, hchunk]
  rw [hrows]
  refine ⟨?_, fun hyes => hchunk ▸ (hok hyes).1⟩
  cases hyes : inserted.1 with
  | true => exact .inl (hok hyes).2
  | false => exact hwrites.imp_right fun hw => ⟨hw, rfl⟩

/-- Writing a message again changes nothing; writing it for the first time puts it behind the others. -/
theorem written_insert {written : List (Nat × Nat)} (hnodup : written.Nodup)
    (htable : s.table = before.insertAll (written.flatMap (messageRows parse log))) (x : Nat × Nat) :
    ∃ written' : List (Nat × Nat), written'.Nodup ∧
      s.table.insertAll (messageRows parse log x) = before.insertAll (written'.flatMap (messageRows parse log)) ∧
      (∀ y ∈ written', y ∈ written ∨ y = x) ∧ written ⊆ written' ∧ x ∈ written' := by
  rw [htable, ← KeyedTable.insertAll_append]
  by_cases hmem : x ∈ written
  · refine ⟨written, hnodup, ?_, fun y hy => .inl hy, List.Subset.refl _, hmem⟩
    exact KeyedTable.insertAll_repeat fun r hr => List.mem_flatMap.2 ⟨x, hmem, hr⟩
  · refine ⟨written ++ [x], ?_, ?_, fun y hy => by simpa using hy, List.subset_append_left _ _, by simp⟩
    · exact List.nodup_append'.2 ⟨hnodup, List.nodup_singleton _, by simpa using hmem⟩
    · rw [List.flatMap_append, List.flatMap_singleton]

/-- A delivery that is handled. -/
theorem EffectivelyOnce.insert {batch : MetricsBatch} {p o : Nat} (h : EffectivelyOnce parse log before s)
    (hb : batchAt parse log p o = some batch) {connected : Bool} {verdict : Sql → Verdict}
    (hchunk : s.storage.chunk = 500) :
    let inserted := insertBatch s connected verdict batch
    EffectivelyOnce parse log before
      { consumer := handleMessage parse log s.consumer p o inserted.1, storage := inserted.2.1
        table := inserted.2.2 } := by
  intro inserted
  obtain ⟨written, hnodup, htable, hdelivered, hdone⟩ := h
  obtain ⟨hwrites, hfew⟩ := insertBatch_rows hb hchunk connected verdict
  obtain ⟨-, -, ⟨hnone, -⟩ | ⟨-, -, hout⟩⟩ := handleMessage_spec parse log s.consumer p o inserted.1
  · rw [hb] at hnone
    cases hnone
  -- the list of the messages that took effect, behind this delivery
  have hnext : ∃ written' : List (Nat × Nat), written'.Nodup ∧
      inserted.2.2 = before.insertAll (written'.flatMap (messageRows parse log)) ∧
      (∀ x ∈ written', x ∈ written ∨ x = (p, o)) ∧ written ⊆ written' ∧ (inserted.1 = true → (p, o) ∈ written') := by
    rcases hwrites with hw | ⟨hw, hno⟩
    · obtain ⟨written', hnodup', htable', hsub, hold, hmem⟩ := written_insert hnodup htable (p, o)
      exact ⟨written', hnodup', hw.trans htable', hsub, hold, fun _ => hmem⟩
    · refine ⟨written, hnodup, hw.trans htable, fun x hx => .inl hx, List.Subset.refl _, fun hyes => ?_⟩
      rw [show inserted.1 = false from hno] at hyes
      cases hyes
  obtain ⟨written', hnodup', htable', hsub, hold, hnew⟩ := hnext
  refine ⟨written', hnodup', htable', fun x hx => ?_, fun q r batch' hb' hyes => ?_⟩
  · rw [hout]
    split
    · simp
    · rename_i hne
      rcases hsub x hx with hx | rfl
      · exact hdelivered x hx
      · exact absurd ⟨rfl, rfl⟩ hne
  · rw [hout] at hyes
    split at hyes
    · rename_i heq
      obtain ⟨rfl, rfl⟩ := heq
      rw [hb] at hb'
      cases hb'
      have hinserted : inserted.1 = true := Option.some.inj hyes
      exact ⟨hnew hinserted, hfew hinserted⟩
    · obtain ⟨hmem, hfit⟩ := hdone q r batch' hb' hyes
      exact ⟨hold hmem, hfit⟩

/-- **One event.** -/
theorem storageInv_step (s : StorageConsumer) (e : StorageEvent) (s' : StorageConsumer)
    (h : StorageInv parse log offsets before s) (hs : s.step parse log e = some s') :
    StorageInv parse log offsets before s' := by
  have hloop := inv_step s.consumer _ _ h.loop (step_consumer hs)
  by_cases hhandle : ∃ connected verdict, e = .handle connected verdict
  · obtain ⟨connected, verdict, rfl⟩ := hhandle
    simp only [StorageConsumer.step] at hs
    split at hs
    · rename_i p o hpc
      cases hb : batchAt parse log p o with
      | none =>
        simp only [hb] at hs
        cases hs
        refine ⟨hloop, h.chunk, ?_⟩
        obtain ⟨-, -, ⟨-, -, hout⟩ | ⟨hsome, -⟩⟩ := handleMessage_spec parse log s.consumer p o false
        · obtain ⟨written, hrest⟩ := h.once
          exact ⟨written, by simpa only [hout] using hrest⟩
        · simp [hb] at hsome
      | some batch =>
        simp only [hb] at hs
        cases hs
        refine ⟨hloop, ?_, h.once.insert hb h.chunk⟩
        rw [← h.chunk, TimescaleStorage.chunk, TimescaleStorage.chunk, insertBatch, insertMetrics_batchSize]
    · cases hs
  · obtain ⟨htable, hout, hstorage⟩ := step_other (fun c v he => hhandle ⟨c, v, he⟩) hs
    refine ⟨hloop, ?_, ?_⟩
    · rcases hstorage with hst | hst
      · rw [hst]
        exact h.chunk
      · rw [hst]
        decide
    · obtain ⟨written, hnodup, hold, hrest⟩ := h.once
      exact ⟨written, hnodup, htable.trans hold, by rw [hout]; exact hrest⟩

/-- Behind a safe committed offset everything is stored. -/
theorem StorageInv.committed (h : StorageInv parse log offsets before s) (hsafe : Safe parse log offsets s.consumer) :
    CommittedStored parse log offsets before s := by
  intro p o batch hstart hcommitted hb r hr
  obtain ⟨written, -, htable, -, hdone⟩ := h.once
  obtain ⟨hmem, hfit⟩ := hdone p o batch hb (hsafe p o hstart hcommitted (by simp [hb]))
  have hrows : messageRows parse log (p, o) = batchRows batch := by
    simp only [messageRows, hb, List.take_of_length_le hfit, batchRows]
  have hwritten : r ∈ written.flatMap (messageRows parse log) := List.mem_flatMap.2 ⟨_, hmem, hrows ▸ hr⟩
  rw [RowStored, htable]
  refine ⟨KeyedTable.mem_keys_insertAll.2 (.inr (List.mem_map_of_mem hwritten)), fun hold hown => ?_⟩
  refine KeyedTable.mem_insertAll_own hwritten hold fun r' hr' hkey => ?_
  obtain ⟨x, -, hx⟩ := List.mem_flatMap.1 hr'
  exact hown x r' hx hkey

/-- **Redelivery is harmless.** In every run of deliveries, inserts, commits, crashes and rebalances, each message that
took effect has been written once; and when no commit passes a failed message, every committed one is stored whole. -/
theorem redelivery_harmless (parse : Payload → Option MetricsBatch) (log : Nat → Nat → Message Payload)
    (offsets : Nat → Nat) (table : NetworkMetrics) (run : List StorageEvent) :
    let step := StorageConsumer.step parse log
    let begin := startStorage offsets table
    Always step (EffectivelyOnce parse log table) begin run ∧
      (Guarded step (StorageMeetsNoFailure parse log) begin run →
        Always step (CommittedStored parse log offsets table) begin run) := by
  intro step begin
  have hinv : StorageInv parse log offsets table begin := by
    refine ⟨inv_start offsets, rfl, [], List.nodup_nil, rfl, nofun, fun p o batch _ h => ?_⟩
    cases h
  constructor
  · exact always_of_inv storageInv_step (fun _ h => h.once) hinv
  · intro hguard
    have hstep : ∀ s e s', (StorageInv parse log offsets table s ∧ Safe parse log offsets s.consumer) →
        StorageMeetsNoFailure parse log s e → step s e = some s' →
          StorageInv parse log offsets table s' ∧ Safe parse log offsets s'.consumer := by
      intro s e s' h hg hs
      exact ⟨storageInv_step s e s' h.1 hs, (safe_step s.consumer _ _ h.1.loop h.2 (step_consumer hs)).2 hg⟩
    exact always_of_guarded hstep (fun s h => h.1.committed h.2)
      ⟨hinv, fun p o h h' => absurd h' (Nat.not_lt.2 h)⟩ hguard

end

/-- The answer to the first insert is lost; the message is delivered again to a new process and committed. -/
theorem redelivery_harmless_lost_reply :
    let ping : Metric := { checkType := .icmpPing, target := "1.1.1.1", success := true }
    let log : Nat → Nat → Message MetricsBatch := fun _ o =>
      ⟨some { agentId := "a", timestampUnixMs := 100 + o, metrics := [ping] }⟩
    let run : List StorageEvent := [.consume 0, .handle true fun _ => .lostReply, .restart, .consume 0,
      .handle true fun _ => .done, .commit true]
    let step := StorageConsumer.step some log
    let begin := startStorage (fun _ => 0) KeyedTable.empty
    (runEvents step begin run).map (fun s => (s.table.rows.map MetricRow.timeMs, s.consumer.committed 0)) =
        some ([100], 1) ∧
      Always step (EffectivelyOnce some log KeyedTable.empty) begin run ∧
      Always step (CommittedStored some log (fun _ => 0) KeyedTable.empty) begin run := by
  intro ping log run step begin
  obtain ⟨honce, hstored⟩ := redelivery_harmless some log (fun _ => 0) KeyedTable.empty run
  exact ⟨by decide +kernel, honce, hstored (by decide +kernel)⟩

end PudimNetMon.Kafka
