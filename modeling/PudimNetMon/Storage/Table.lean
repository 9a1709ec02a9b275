import PudimNetMon.Lib.KeyedTable
import PudimNetMon.Storage.InsertOrder

/-!
# `network_metrics` and its primary key

- a batch's rows have pairwise distinct keys, by their stamps (`rowsFrom_keys_nodup`);
- `insertMetrics_idempotent`: a list that fits one statement can be inserted again without effect, and only rows that
  were there before keep a metric of the list out.
-/

namespace PudimNetMon.Storage

/-- `PRIMARY KEY (time, agent_id, check_type, target, seq)`. -/
structure MetricKey where
  timeMs : Int
  agentId : String
  checkType : String
  target : String
  seq : Nat
  deriving DecidableEq, Repr

def MetricRow.key (r : MetricRow) : MetricKey := ⟨r.timeMs, r.agentId, r.checkType, r.target, r.seq⟩

abbrev NetworkMetrics := KeyedTable MetricRow.key

/-- `PQexec` on the table. A text that is no `INSERT`, or one the server rejects, has no effect. -/
def execInsert (accepts : Sql → Bool) (sql : Sql) (t : NetworkMetrics) : Bool × NetworkMetrics :=
  match parseInsert sql with
  | some rows => if accepts sql then (true, t.insertAll rows) else (false, t)
  | none => (false, t)

theorem execInsert_insertSql (accepts : Sql → Bool) {rows : List MetricRow} (h : rows ≠ []) (t : NetworkMetrics) :
    execInsert accepts (insertSql rows) t =
      if accepts (insertSql rows) then (true, t.insertAll rows) else (false, t) := by
  simp only [execInsert, parseInsert_insertSql h]

/-! ## The keys of a list -/

/-- Stamps less than `2 ^ 64` apart are equal only for the same metric. -/
theorem stamp_inj {base : Int64} {i j : Nat} (hi : i < 2 ^ 64) (hj : j < 2 ^ 64)
    (h : (base + Int64.ofNat i).toInt = (base + Int64.ofNat j).toInt) : i = j := by
  have hof : Int64.ofNat i = Int64.ofNat j := (Int64.add_right_inj base).1 (Int64.toInt_inj.1 h)
  have hbits : (Int64.ofNat i).toBitVec.toNat = (Int64.ofNat j).toBitVec.toNat := by rw [hof]
  rwa [Int64.toBitVec_ofNat', Int64.toBitVec_ofNat', BitVec.toNat_ofNat, BitVec.toNat_ofNat, Nat.mod_eq_of_lt hi,
    Nat.mod_eq_of_lt hj] at hbits

theorem mem_rowsFrom {agentId : String} {base : Int64} {r : MetricRow} : ∀ {k : Nat} {ms : List Metric},
    r ∈ rowsFrom agentId base k ms →
      ∃ i, k ≤ i ∧ i < k + ms.length ∧ ∃ m ∈ ms, r = metricRow agentId (base + Int64.ofNat i) m
  | _, [], h => by simp [rowsFrom] at h
  | k, m :: ms, h => by
    rcases List.mem_cons.1 h with rfl | h
    · exact ⟨k, Nat.le_refl k, by simp, m, List.mem_cons_self, rfl⟩
    · obtain ⟨i, hk, hi, m', hm', rfl⟩ := mem_rowsFrom h
      exact ⟨i, by omega, by rw [List.length_cons]; omega, m', List.mem_cons_of_mem _ hm', rfl⟩

/-- The keys of a list are pairwise distinct: no two of its stamps are equal. -/
theorem rowsFrom_keys_nodup {agentId : String} {base : Int64} : ∀ {k : Nat} {ms : List Metric},
    k + ms.length ≤ 2 ^ 64 → ((rowsFrom agentId base k ms).map MetricRow.key).Nodup
  | _, [], _ => List.nodup_nil
  | k, m :: ms, h => by
    rw [List.length_cons] at h
    rw [rowsFrom, List.map_cons, List.nodup_cons]
    refine ⟨fun hmem => ?_, rowsFrom_keys_nodup (by omega)⟩
    obtain ⟨r, hr, hkey⟩ := List.mem_map.1 hmem
    obtain ⟨i, hki, hi, m', -, rfl⟩ := mem_rowsFrom hr
    have hik : i = k := stamp_inj (by omega) (by omega) (congrArg MetricKey.timeMs hkey)
    omega

/-! ## Inserting again -/

section

variable {storage : TimescaleStorage} {agentId : String} {base : Int64} {ms : List Metric} {t : NetworkMetrics}

theorem length_le_chunk (h : (ms.length : Int) ≤ storage.batchSize.toInt) : ms.length ≤ storage.chunk := by
  unfold TimescaleStorage.chunk
  omega

theorem chunk_lt (storage : TimescaleStorage) : storage.chunk < 2 ^ 31 := by
  have := storage.batchSize.toInt_lt
  unfold TimescaleStorage.chunk
  omega

/-- The table after an attempt is the old one or has the rows of the list; the result says which. -/
theorem insertMetrics_table (accepts : Sql → Bool) (connected : Bool) (h : ms.length ≤ storage.chunk) :
    (insertMetrics (execInsert accepts) connected storage t agentId base ms).2.2 =
      if (insertMetrics (execInsert accepts) connected storage t agentId base ms).1 then
        t.insertAll (rowsFrom agentId base 0 ms)
      else t := by
  cases connected with
  | false => rfl
  | true =>
    by_cases hms : ms = []
    · subst hms
      rfl
    · rw [insertMetrics_fits storage t agentId base hms h, execInsert_insertSql accepts (rowsFrom_ne_nil hms)]
      cases accepts (insertSql (rowsFrom agentId base 0 ms)) <;> simp

/-- The result of an attempt does not depend on the table or the counters. -/
theorem insertMetrics_result (accepts : Sql → Bool) (connected : Bool) (h : ms.length ≤ storage.chunk) :
    (insertMetrics (execInsert accepts) connected storage t agentId base ms).1 =
      (connected && (ms.isEmpty || accepts (insertSql (rowsFrom agentId base 0 ms)))) := by
  cases connected with
  | false => rfl
  | true =>
    by_cases hms : ms = []
    · subst hms
      rfl
    · rw [insertMetrics_fits storage t agentId base hms h, execInsert_insertSql accepts (rowsFrom_ne_nil hms)]
      cases accepts (insertSql (rowsFrom agentId base 0 ms)) <;> simp [hms]

@[simp] theorem insertMetrics_batchSize {σ : Type} (exec : Sql → σ → Bool × σ) (connected : Bool) (db : σ) :
    (insertMetrics exec connected storage db agentId base ms).2.1.batchSize = storage.batchSize := by
  unfold insertMetrics
  split
  · split
    split <;> rfl
  · rfl

/-- **Redelivery.** A list that fits one statement, inserted twice, leaves the table as one insertion does; and once
an insertion succeeded a later one changes nothing, however it ends. The keys of the list are pairwise distinct, so a
successful insertion appends every row of the list whose key the table did not have. -/
theorem insertMetrics_idempotent (accepts : Sql → Bool) (connected : Bool) (storage : TimescaleStorage)
    (t : NetworkMetrics) (agentId : String) (base : Int64) (ms : List Metric)
    (h : (ms.length : Int) ≤ storage.batchSize.toInt) :
    let once := insertMetrics (execInsert accepts) connected storage t agentId base ms
    (insertMetrics (execInsert accepts) connected once.2.1 once.2.2 agentId base ms).2.2 = once.2.2 ∧
      (once.1 = true → ∀ accepts' connected',
        (insertMetrics (execInsert accepts') connected' once.2.1 once.2.2 agentId base ms).2.2 = once.2.2) ∧
      ((rowsFrom agentId base 0 ms).map MetricRow.key).Nodup ∧
      (once.1 = true →
        once.2.2.rows = t.rows ++ (rowsFrom agentId base 0 ms).filter fun r => r.key ∉ t.keys) := by
  intro once
  have hfit := length_le_chunk h
  have hchunk := chunk_lt storage
  have hnodup : ((rowsFrom agentId base 0 ms).map MetricRow.key).Nodup := rowsFrom_keys_nodup (by omega)
  have htable : once.2.2 = if once.1 then t.insertAll (rowsFrom agentId base 0 ms) else t :=
    insertMetrics_table accepts connected hfit
  have hfit' : ms.length ≤ once.2.1.chunk := by
    rw [TimescaleStorage.chunk, insertMetrics_batchSize]
    exact hfit
  have hagain : once.1 = true → ∀ accepts' connected',
      (insertMetrics (execInsert accepts') connected' once.2.1 once.2.2 agentId base ms).2.2 = once.2.2 := by
    intro hok accepts' connected'
    rw [insertMetrics_table accepts' connected' hfit', htable, if_pos hok]
    split
    · exact KeyedTable.insertAll_idem ..
    · rfl
  refine ⟨?_, hagain, hnodup, ?_⟩
  · by_cases hok : once.1 = true
    · exact hagain hok accepts connected
    · -- the first insertion failed, and so does the second
      have hfail : (insertMetrics (execInsert accepts) connected once.2.1 once.2.2 agentId base ms).1 = false := by
        rw [insertMetrics_result accepts connected hfit', ← insertMetrics_result (t := t) accepts connected hfit]
        simpa using hok
      rw [insertMetrics_table accepts connected hfit', hfail]
      rfl
  · intro hok
    rw [htable, if_pos hok]
    exact KeyedTable.insertAll_distinct hnodup

/-- Two pings of one target with one sequence number, under the default batch size. -/
theorem insertMetrics_idempotent_pings :
    let ping : Metric := { checkType := .icmpPing, target := "1.1.1.1", success := true, seq := 7 }
    let once := insertMetrics (execInsert fun _ => true) true { } KeyedTable.empty "agent-a" 1700000000000 [ping, ping]
    once.2.2.rows.map MetricRow.timeMs = [1700000000000, 1700000000001] ∧
      (insertMetrics (execInsert fun _ => true) true once.2.1 once.2.2 "agent-a" 1700000000000 [ping, ping]).2.2 =
        once.2.2 := by
  intro ping once
  exact ⟨by decide, (insertMetrics_idempotent (fun _ => true) true { } KeyedTable.empty "agent-a" 1700000000000
    [ping, ping] (by decide)).1⟩

end

end PudimNetMon.Storage
