import PudimNetMon.Collector.MetricsService
import PudimNetMon.Storage.Table

/-!
# A batch sent again

The agent sends a batch until a `SendMetrics` is acknowledged. An `Attempt` may get lost on its way, meet no database
connection, have its statement refused or carried out without an answer, or lose its reply.

- `run_table`: the table after an attempt is the old one or has the batch's rows at the attempt's own clock;
- `stored_once_iff`: after an acknowledged attempt the batch is stored once exactly when every attempt that took
  effect read the same millisecond.
-/

namespace PudimNetMon.Collector

open Storage

/-- What becomes of a well-formed statement. -/
inductive Verdict
  | done
  /-- Carried out, but the connection broke before the answer. -/
  | lostReply
  | refused
  deriving DecidableEq, Repr

/-- `PQexec` under the verdicts of one attempt. -/
def execVerdict (verdict : Sql → Verdict) (sql : Sql) (t : NetworkMetrics) : Bool × NetworkMetrics :=
  match parseInsert sql with
  | none => (false, t)
  | some rows =>
    match verdict sql with
    | .done => (true, t.insertAll rows)
    | .lostReply => (false, t.insertAll rows)
    | .refused => (false, t)

/-- One attempt of the agent. -/
structure Attempt where
  /-- The request reaches the collector. -/
  delivered : Bool := true
  call : IngestCall := { }
  verdict : Sql → Verdict := fun _ => .done
  /-- The reply reaches the agent. -/
  replied : Bool := true

/-- An attempt and whether the agent sees it acknowledged. -/
def Attempt.run (a : Attempt) (batch : MetricsBatch) (c : Ingest NetworkMetrics) : Bool × Ingest NetworkMetrics :=
  if a.delivered then
    let sent := c.sendMetrics (execVerdict a.verdict) none a.call batch
    (a.replied && sent.response.ack, sent.collector)
  else (false, c)

/-- The collector after several attempts. -/
def runAttempts (batch : MetricsBatch) (c : Ingest NetworkMetrics) (attempts : List Attempt) : Ingest NetworkMetrics :=
  attempts.foldl (fun c a => (a.run batch c).2) c

/-- The rows an attempt writes when it takes effect. -/
def Attempt.rows (a : Attempt) (batch : MetricsBatch) : List MetricRow :=
  rowsFrom batch.agentId a.call.ingestMs 0 batch.metrics

/-- The attempt's statement is carried out. -/
def Attempt.effective (a : Attempt) (batch : MetricsBatch) : Bool :=
  a.delivered && !batch.agentId.isEmpty && !batch.metrics.isEmpty && a.call.connected &&
    decide (a.verdict (insertSql (a.rows batch)) ≠ .refused)

/-! ## One attempt -/

variable {batch : MetricsBatch} {c : Ingest NetworkMetrics} {a : Attempt}

/-- The insert under an attempt's verdicts. -/
theorem insertMetrics_execVerdict (verdict : Sql → Verdict) {storage : TimescaleStorage} {t : NetworkMetrics}
    {agentId : String} {base : Int64} {ms : List Metric} (hms : ms ≠ []) (h : ms.length ≤ storage.chunk) :
    let inserted := insertMetrics (execVerdict verdict) true storage t agentId base ms
    inserted.1 = decide (verdict (insertSql (rowsFrom agentId base 0 ms)) = .done) ∧
      inserted.2.2 = if verdict (insertSql (rowsFrom agentId base 0 ms)) = .refused then t
        else t.insertAll (rowsFrom agentId base 0 ms) := by
  intro inserted
  have hins : inserted = _ := insertMetrics_fits storage t agentId base hms h
  rw [hins]
  cases hv : verdict (insertSql (rowsFrom agentId base 0 ms)) <;>
    simp [execVerdict, parseInsert_insertSql (rowsFrom_ne_nil hms), hv]

/-- An attempt keeps the mode and the batch size. -/
theorem run_config (a : Attempt) (batch : MetricsBatch) (hmode : c.service.mode = .direct) :
    (a.run batch c).2.service.mode = .direct ∧ (a.run batch c).2.storage.chunk = c.storage.chunk := by
  unfold Attempt.run
  split
  · obtain ⟨hm, hsent⟩ := @Ingest.sendMetrics_direct _ (execVerdict a.verdict) none c a.call batch hmode
    refine ⟨hm, ?_⟩
    split at hsent
    · rw [TimescaleStorage.chunk, TimescaleStorage.chunk, hsent.2.1, insertMetrics_batchSize]
    · rw [hsent.2.1]
  · exact ⟨hmode, rfl⟩

/-- **One attempt.** It writes its rows when it takes effect and nothing otherwise. -/
theorem run_table (hmode : c.service.mode = .direct) (hfit : batch.metrics.length ≤ c.storage.chunk) :
    (a.run batch c).2.world = if a.effective batch then c.world.insertAll (a.rows batch) else c.world := by
  cases hd : a.delivered with
  | false => simp [Attempt.run, Attempt.effective, hd]
  | true =>
    obtain ⟨-, hsent⟩ := @Ingest.sendMetrics_direct _ (execVerdict a.verdict) none c a.call batch hmode
    simp only [Attempt.run, hd, if_true]
    split at hsent
    · rename_i hguard
      rw [hsent.2.2]
      cases hconn : a.call.connected with
      | false => simp [insertMetrics, Attempt.effective, hconn]
      | true =>
        rw [(insertMetrics_execVerdict a.verdict hguard.2 hfit).2]
        by_cases hv : a.verdict (insertSql (a.rows batch)) = .refused
        · rw [if_pos (by exact hv), if_neg (by simp [Attempt.effective, hv])]
        · rw [if_neg (by exact hv), if_pos (by simp [Attempt.effective, hd, hconn, hguard, hv])]
          rfl
    · rename_i hguard
      rw [hsent.2.2, if_neg]
      simp only [Attempt.effective, Bool.and_eq_true, Bool.not_eq_true', List.isEmpty_eq_false_iff]
      exact fun h => hguard ⟨h.1.1.1.2, h.1.1.2⟩

/-- An acknowledged attempt at a batch with metrics took effect, and the batch fits one statement. -/
theorem run_acked (hmode : c.service.mode = .direct) (hms : batch.metrics ≠ []) (hack : (a.run batch c).1 = true) :
    batch.metrics.length ≤ c.storage.chunk ∧ a.effective batch = true := by
  cases hd : a.delivered with
  | false => simp [Attempt.run, hd] at hack
  | true =>
    obtain ⟨-, hsent⟩ := @Ingest.sendMetrics_direct _ (execVerdict a.verdict) none c a.call batch hmode
    simp only [Attempt.run, hd, if_true, Bool.and_eq_true] at hack
    have hagent : batch.agentId.isEmpty = false := by
      by_contra hne
      rw [if_neg (fun h => hne h.1), hack.2] at hsent
      exact hne (by simpa using hsent.1.symm)
    rw [if_pos ⟨hagent, hms⟩, hack.2] at hsent
    have hok := hsent.1.symm
    cases hconn : a.call.connected with
    | false => simp [insertMetrics, hconn] at hok
    | true =>
      rw [hconn] at hok
      have hfit : batch.metrics.length ≤ c.storage.chunk := by
        by_contra hlarge
        have hrefuses : ∀ sql t, parseInsert sql = none → (execVerdict a.verdict sql t).1 = false :=
          fun sql t h => by simp [execVerdict, h]
        have hfail := insertMetrics_large c.storage c.world batch.agentId a.call.ingestMs hrefuses
          (Nat.lt_of_not_le hlarge)
        rw [hfail] at hok
        exact absurd hok (by simp)
      refine ⟨hfit, ?_⟩
      rw [(insertMetrics_execVerdict a.verdict hms hfit).1, decide_eq_true_iff] at hok
      simp [Attempt.effective, Attempt.rows, hd, hconn, hagent, hms, hok]

/-! ## Several attempts -/

/-- The rows written by the attempts that take effect. -/
def writtenRows (batch : MetricsBatch) (attempts : List Attempt) : List MetricRow :=
  (attempts.filter fun a => a.effective batch).flatMap fun a => a.rows batch

theorem runAttempts_config (batch : MetricsBatch) (attempts : List Attempt) {c : Ingest NetworkMetrics}
    (h : c.service.mode = .direct) :
    (runAttempts batch c attempts).service.mode = .direct ∧
      (runAttempts batch c attempts).storage.chunk = c.storage.chunk := by
  induction attempts generalizing c with
  | nil => exact ⟨h, rfl⟩
  | cons a as ih =>
    have hrun := run_config a batch h
    obtain ⟨hm, hs⟩ := ih hrun.1
    exact ⟨hm, hs.trans hrun.2⟩

/-- **Attempts.** The table has the rows of the attempts that took effect, one statement after the other. -/
theorem runAttempts_table (attempts : List Attempt) {c : Ingest NetworkMetrics} (hmode : c.service.mode = .direct)
    (hfit : batch.metrics.length ≤ c.storage.chunk) :
    (runAttempts batch c attempts).world = c.world.insertAll (writtenRows batch attempts) := by
  induction attempts generalizing c with
  | nil => rfl
  | cons a as ih =>
    have hrun := run_config a batch hmode
    have hrest : (runAttempts batch c (a :: as)).world =
        (a.run batch c).2.world.insertAll (writtenRows batch as) :=
      ih hrun.1 (by rw [hrun.2]; exact hfit)
    rw [hrest, run_table hmode hfit]
    cases he : a.effective batch with
    | true => simp [writtenRows, he, KeyedTable.insertAll_append]
    | false => simp [writtenRows, he]

/-! ## Stored once -/

/-- A row without its time. -/
def contentOf (r : MetricRow) : MetricRow := { r with timeMs := 0 }

/-- The rows added to the table are those of the batch, one for each metric, whatever their times. -/
def StoredOnce (batch : MetricsBatch) (before after : NetworkMetrics) : Prop :=
  ∃ added, after.rows = before.rows ++ added ∧
    (added.map contentOf).Perm (batch.metrics.map (metricRow batch.agentId 0))

/-- No attempt that takes effect meets a row of the table with the key of one of its own. -/
def Unmet (batch : MetricsBatch) (t : NetworkMetrics) (attempts : List Attempt) : Prop :=
  ∀ a ∈ attempts, a.effective batch = true → ∀ r ∈ a.rows batch, r.key ∉ t.keys

/-- All attempts that take effect read the same millisecond. -/
def SameClock (batch : MetricsBatch) (attempts : List Attempt) : Prop :=
  ∀ a ∈ attempts, ∀ b ∈ attempts, a.effective batch = true → b.effective batch = true →
    a.call.ingestMs = b.call.ingestMs

theorem contentOf_rowsFrom (agentId : String) (base : Int64) : ∀ (k : Nat) (ms : List Metric),
    (rowsFrom agentId base k ms).map contentOf = ms.map (metricRow agentId 0)
  | _, [] => rfl
  | k, m :: ms => by
    rw [rowsFrom, List.map_cons, List.map_cons, contentOf_rowsFrom agentId base (k + 1) ms]
    rfl

theorem StoredOnce.length {before after : NetworkMetrics} (h : StoredOnce batch before after) :
    after.rows.length = before.rows.length + batch.metrics.length := by
  obtain ⟨added, hrows, hperm⟩ := h
  have hlen := hperm.length_eq
  rw [List.length_map, List.length_map] at hlen
  rw [hrows, List.length_append, hlen]

/-- Two lists of stamps that have the same elements start at the same time. -/
theorem base_eq_of_keys {agentId : String} {base base' : Int64} {ms : List Metric} (hms : ms ≠ [])
    (hlen : ms.length < 2 ^ 31)
    (h : (rowsFrom agentId base 0 ms).map MetricRow.key ⊆ (rowsFrom agentId base' 0 ms).map MetricRow.key)
    (h' : (rowsFrom agentId base' 0 ms).map MetricRow.key ⊆ (rowsFrom agentId base 0 ms).map MetricRow.key) :
    base = base' := by
  have first : ∀ {b b' : Int64},
      (rowsFrom agentId b 0 ms).map MetricRow.key ⊆ (rowsFrom agentId b' 0 ms).map MetricRow.key →
      ∃ i, i < ms.length ∧ b = b' + Int64.ofNat i := by
    intro b b' hsub
    obtain ⟨m, rest, rfl⟩ := List.exists_cons_of_ne_nil hms
    have hhead : (metricRow agentId (b + Int64.ofNat 0) m).key ∈
        (rowsFrom agentId b' 0 (m :: rest)).map MetricRow.key := hsub (by simp [rowsFrom])
    obtain ⟨r, hr, hkey⟩ := List.mem_map.1 hhead
    obtain ⟨i, -, hi, m', -, rfl⟩ := mem_rowsFrom hr
    have htime : (b' + Int64.ofNat i).toInt = (b + Int64.ofNat 0).toInt := congrArg MetricKey.timeMs hkey
    exact ⟨i, by omega, by simpa using (Int64.toInt_inj.1 htime).symm⟩
  obtain ⟨i, hi, hbi⟩ := first h
  obtain ⟨j, hj, hbj⟩ := first h'
  -- going forth and back is a shift by less than the size of the type, so it is none
  have hshift : (base + Int64.ofNat 0).toInt = (base + Int64.ofNat (j + i)).toInt := by
    rw [Int64.ofNat_add, ← Int64.add_assoc, ← hbj, ← hbi]
    simp
  have hzero : 0 = j + i := stamp_inj (by omega) (by omega) hshift
  have hj0 : i = 0 := by omega
  rw [hbi, hj0]
  simp

theorem mem_writtenRows {attempts : List Attempt} {r : MetricRow} :
    r ∈ writtenRows batch attempts ↔ ∃ a ∈ attempts, a.effective batch = true ∧ r ∈ a.rows batch := by
  simp [writtenRows, and_assoc]

theorem Attempt.length_rows (a : Attempt) (batch : MetricsBatch) : (a.rows batch).length = batch.metrics.length :=
  length_rowsFrom ..

theorem Attempt.rows_keys_nodup (a : Attempt) (h : batch.metrics.length < 2 ^ 31) :
    ((a.rows batch).map MetricRow.key).Nodup := rowsFrom_keys_nodup (by omega)

/-- Under one clock the table has the rows of any one attempt that took effect. -/
theorem insertAll_writtenRows {attempts : List Attempt} {t : NetworkMetrics} (h : SameClock batch attempts)
    (ha : a ∈ attempts) (he : a.effective batch = true) :
    t.insertAll (writtenRows batch attempts) = t.insertAll (a.rows batch) := by
  have hsame : ∀ b ∈ attempts, b.effective batch = true → b.rows batch = a.rows batch := by
    intro b hb hbe
    rw [Attempt.rows, Attempt.rows, h b hb a ha hbe he]
  obtain ⟨first, rest, hfilter⟩ : ∃ first rest, (attempts.filter fun a => a.effective batch) = first :: rest :=
    List.exists_cons_of_ne_nil (List.ne_nil_of_mem (List.mem_filter.2 ⟨ha, he⟩))
  have hmem : ∀ b ∈ first :: rest, b.rows batch = a.rows batch := by
    intro b hb
    rw [← hfilter] at hb
    exact hsame b (List.mem_filter.1 hb).1 (List.mem_filter.1 hb).2
  rw [writtenRows, hfilter, List.flatMap_cons, hmem first List.mem_cons_self]
  refine KeyedTable.insertAll_repeat fun r hr => ?_
  obtain ⟨b, hb, hrb⟩ := List.mem_flatMap.1 hr
  exact hmem b (List.mem_cons_of_mem _ hb) ▸ hrb

section

variable {attempts : List Attempt} {t : NetworkMetrics} (hlen : batch.metrics.length < 2 ^ 31)

include hlen

/-- Under one clock the batch is stored once exactly when its rows meet none of the table. -/
theorem storedOnce_of_sameClock (ha : a ∈ attempts) (he : a.effective batch = true) (h : SameClock batch attempts) :
    StoredOnce batch t (t.insertAll (writtenRows batch attempts)) ↔ Unmet batch t attempts := by
  have hrows := KeyedTable.insertAll_distinct (t := t) (a.rows_keys_nodup hlen)
  rw [insertAll_writtenRows h ha he]
  constructor
  · intro hstored b hb hbe r hr
    have hfree : ((a.rows batch).filter fun r => r.key ∉ t.keys).length = (a.rows batch).length := by
      have := hstored.length
      rw [hrows, List.length_append] at this
      rw [a.length_rows]
      omega
    have hall := List.length_filter_eq_length_iff.1 hfree r
      (by rw [Attempt.rows, h a ha b hb he hbe]; exact hr)
    simpa using hall
  · intro hunmet
    exact ⟨a.rows batch, KeyedTable.insertAll_fresh (a.rows_keys_nodup hlen) (hunmet a ha he),
      by rw [Attempt.rows, contentOf_rowsFrom]⟩

/-- A batch stored once was written under one clock. -/
theorem sameClock_of_storedOnce (hms : batch.metrics ≠ []) (hunmet : Unmet batch t attempts)
    (h : StoredOnce batch t (t.insertAll (writtenRows batch attempts))) : SameClock batch attempts := by
  have hfree : ∀ r ∈ writtenRows batch attempts, r.key ∉ t.keys := by
    intro r hr
    obtain ⟨b, hb, hbe, hrb⟩ := mem_writtenRows.1 hr
    exact hunmet b hb hbe r hrb
  -- each attempt that took effect accounts for all keys the batch wrote
  have hall : ∀ b ∈ attempts, b.effective batch = true →
      (writtenRows batch attempts).map MetricRow.key ⊆ (b.rows batch).map MetricRow.key := by
    intro b hb hbe
    refine KeyedTable.keys_subset_of_length (b.rows_keys_nodup hlen) ?_ hfree (by rw [h.length, b.length_rows])
    exact List.map_subset _ fun r hr => mem_writtenRows.2 ⟨b, hb, hbe, hr⟩
  have hsub : ∀ b ∈ attempts, b.effective batch = true →
      (b.rows batch).map MetricRow.key ⊆ (writtenRows batch attempts).map MetricRow.key := fun b hb hbe =>
    List.map_subset _ fun r hr => mem_writtenRows.2 ⟨b, hb, hbe, hr⟩
  intro b hb d hd hbe hde
  exact base_eq_of_keys hms hlen (List.Subset.trans (hsub b hb hbe) (hall d hd hde))
    (List.Subset.trans (hsub d hd hde) (hall b hb hbe))

end

/-- **Stored once.** When the last attempt is acknowledged and no attempt meets rows of the table, the batch is stored
once exactly when all attempts that took effect read the same millisecond; and under one clock, exactly when no
attempt meets rows of the table. -/
theorem stored_once_iff (c : Ingest NetworkMetrics) (batch : MetricsBatch) (attempts : List Attempt) (last : Attempt)
    (hmode : c.service.mode = .direct) (hack : (last.run batch (runAttempts batch c attempts)).1 = true) :
    let all := attempts ++ [last]
    let stored := StoredOnce batch c.world (runAttempts batch c all).world
    (Unmet batch c.world all → (stored ↔ SameClock batch all)) ∧
      (SameClock batch all → (stored ↔ Unmet batch c.world all)) := by
  intro all stored
  obtain ⟨hmode', hchunk⟩ := runAttempts_config batch attempts hmode
  by_cases hms : batch.metrics = []
  · -- nothing is written, and nothing has to be
    have hnone : ∀ a : Attempt, a.effective batch = false := fun a => by simp [Attempt.effective, hms]
    have hwritten : writtenRows batch all = [] := by simp [writtenRows, hnone]
    have hsame : SameClock batch all := fun a _ b _ hae => absurd hae (by simp [hnone])
    have hunmet : Unmet batch c.world all := fun a _ hae => absurd hae (by simp [hnone])
    have hstored : stored := by
      refine ⟨[], ?_, by simp [hms]⟩
      rw [runAttempts_table all hmode (by simp [hms]), hwritten, KeyedTable.insertAll_nil, List.append_nil]
    exact ⟨fun _ => iff_of_true hstored hsame, fun _ => iff_of_true hstored hunmet⟩
  · obtain ⟨hfit, he⟩ := run_acked hmode' hms hack
    rw [hchunk] at hfit
    have hlen : batch.metrics.length < 2 ^ 31 := Nat.lt_of_le_of_lt hfit (chunk_lt c.storage)
    have hlast : last ∈ all := by simp [all]
    have htable : (runAttempts batch c all).world = c.world.insertAll (writtenRows batch all) :=
      runAttempts_table all hmode hfit
    have hiff : SameClock batch all → (stored ↔ Unmet batch c.world all) := by
      intro hsame
      simp only [stored, htable]
      exact storedOnce_of_sameClock hlen hlast he hsame
    refine ⟨fun hunmet => ⟨fun h => ?_, fun hsame => (hiff hsame).2 hunmet⟩, hiff⟩
    simp only [stored, htable] at h
    exact sameClock_of_storedOnce hlen hms hunmet h

/-- One ping, answered too late, and the same ping again at a later time. -/
def pingBatch : MetricsBatch :=
  { agentId := "agent-a", metrics := [{ checkType := .icmpPing, target := "1.1.1.1", success := true, seq := 7 }] }

def pingAttempt (ingestMs : Int64) (replied : Bool) : Attempt :=
  { call := { ingestMs := ingestMs }, replied := replied }

/-- Two attempts within one millisecond. -/
theorem stored_once_same_millisecond :
    StoredOnce pingBatch KeyedTable.empty (runAttempts pingBatch { world := KeyedTable.empty }
      ([pingAttempt 1000 false] ++ [pingAttempt 1000 true])).world := by
  refine ((stored_once_iff { world := KeyedTable.empty } pingBatch [pingAttempt 1000 false] (pingAttempt 1000 true)
    rfl (by decide)).1 ?_).2 ?_
  · intro a _ _ r _ hr
    exact absurd hr (by simp [KeyedTable.keys, KeyedTable.empty])
  · intro a ha b hb _ _
    simp only [List.cons_append, List.nil_append, List.mem_cons, List.not_mem_nil, or_false] at ha hb
    rcases ha with rfl | rfl <;> rcases hb with rfl | rfl <;> rfl

/-- An attempt whose reply is lost and its retry a second later leave two rows. -/
theorem retry_stores_twice :
    let first := pingAttempt 1000 false
    let retry := pingAttempt 2000 true
    let c : Ingest NetworkMetrics := { world := KeyedTable.empty }
    (retry.run pingBatch (runAttempts pingBatch c [first])).1 = true ∧
      (runAttempts pingBatch c [first, retry]).world.rows.map (fun r => (r.timeMs, r.seq)) =
        [((1000 : Int), 7), (2000, 7)] ∧
      ¬ StoredOnce pingBatch c.world (runAttempts pingBatch c [first, retry]).world := by
  intro first retry c
  refine ⟨by decide, by decide, fun h => ?_⟩
  have hlen := h.length
  exact absurd hlen (by decide)

end PudimNetMon.Collector
