import Mathlib.Algebra.Ring.Int.Defs
import Mathlib.Algebra.Ring.Nat
import PudimNetMon.Storage.Insert

/-!
# A list of metrics over several statements

Against a server that accepts the well-formed `INSERT`s and nothing else, `insertMetrics` sends the metrics in order,
each stamped one millisecond after the one before it (`InsertedInOrder`), exactly when the list fits one statement and
the last stamp is an `int64_t` (`insertMetrics_inOrder_iff`). The characters of what a flush leaves behind are never
those of an `INSERT` (`bare_text_ne_insert`).
-/

namespace PudimNetMon.Storage

/-! ## Stamps -/

/-- The stamp of the `k`-th metric, as the `int64_t` sum gives it. -/
theorem toInt_stamp (base : Int64) (k : Nat) : (base + Int64.ofNat k).toInt = (base.toInt + k).bmod (2 ^ 64) := by
  have hofNat : (Int64.ofNat k).toInt = (k : Int).bmod (2 ^ 64) := Int64.toInt_ofNat'
  rw [Int64.toInt_add, hofNat]
  exact Int.add_bmod_bmod ..

/-- A stamp is the exact sum as long as that is an `int64_t`. -/
theorem toInt_stamp_eq_iff (base : Int64) (k : Nat) :
    (base + Int64.ofNat k).toInt = base.toInt + k ↔ base.toInt + k < 2 ^ 63 := by
  have hlow := base.le_toInt
  constructor
  · intro h
    rw [← h]
    exact Int64.toInt_lt _
  · intro h
    rw [toInt_stamp]
    exact Int.bmod_eq_of_le (by omega) (by omega)

/-- The row of the `k`-th metric, `k` milliseconds after the batch time. -/
def stampedRow (agentId : String) (base : Int) (k : Nat) (m : Metric) : MetricRow :=
  { metricRow agentId 0 m with timeMs := base + k }

/-- The rows of a list whose first metric is the `k`-th of its batch. -/
def stampedRows (agentId : String) (base : Int) : Nat → List Metric → List MetricRow
  | _, [] => []
  | k, m :: ms => stampedRow agentId base k m :: stampedRows agentId base (k + 1) ms

theorem metricRow_eq_stampedRow_iff (agentId : String) (base : Int64) (k : Nat) (m : Metric) :
    metricRow agentId (base + Int64.ofNat k) m = stampedRow agentId base.toInt k m ↔ base.toInt + k < 2 ^ 63 := by
  rw [← toInt_stamp_eq_iff]
  simp [metricRow, stampedRow]

/-- The rows carry exact stamps up to the last `int64_t`. -/
theorem rowsFrom_eq_stampedRows_iff (agentId : String) (base : Int64) : ∀ (k : Nat) (ms : List Metric),
    rowsFrom agentId base k ms = stampedRows agentId base.toInt k ms ↔ ms = [] ∨ base.toInt + k + ms.length ≤ 2 ^ 63
  | _, [] => by simp [rowsFrom, stampedRows]
  | k, m :: ms => by
    have ih := rowsFrom_eq_stampedRows_iff agentId base (k + 1) ms
    simp only [rowsFrom, stampedRows, List.cons.injEq, metricRow_eq_stampedRow_iff, ih, reduceCtorEq, false_or,
      List.length_cons]
    cases ms with
    | nil =>
      simp only [List.length_nil, true_or, and_true]
      omega
    | cons m' ms =>
      simp only [reduceCtorEq, false_or, List.length_cons]
      omega

/-! ## Texts -/

/-- The characters of a text under construction. -/
def Sql.text (pqEscapeLiteral : String → Option String) (sql : Sql) : List Char :=
  sql.flatMap fun p => (p.text pqEscapeLiteral).toList

theorem text_row_head (pqEscapeLiteral : String → Option String) (r : MetricRow) :
    (r.text pqEscapeLiteral).toList.head? = some '(' := by
  have hopen : "(to_timestamp(".toList.head? = some '(' := rfl
  unfold MetricRow.text
  repeat rw [String.toList_append]
  repeat rw [List.append_assoc]
  rw [List.head?_append, hopen, Option.some_or]

theorem insertPrefix_head : insertPrefix.toList.head? = some 'I' := by
  unfold insertPrefix
  rw [String.toList_append, List.head?_append]
  rfl

/-- Rows put behind a cleared text never make the characters of an `INSERT`. -/
theorem bare_text_ne_insert (pqEscapeLiteral : String → Option String) {rows more : List MetricRow}
    (h : rows ≠ []) :
    Sql.text pqEscapeLiteral (joinRows rows ++ [.onConflict]) ≠ Sql.text pqEscapeLiteral (insertSql more) := by
  intro heq
  obtain ⟨r, rs, rfl⟩ := List.exists_cons_of_ne_nil h
  have hhead := congrArg List.head? heq
  simp only [Sql.text, joinRows, insertSql, List.cons_append, List.flatMap_cons, SqlPiece.text, List.head?_append,
    text_row_head, insertPrefix_head, Option.some_or] at hhead
  simp at hhead

/-! ## A strict server -/

/-- The statements a server received. It accepts a well-formed `INSERT` and refuses any other text. -/
def strictServer (sql : Sql) (sent : List Sql) : Bool × List Sql := ((parseInsert sql).isSome, sent ++ [sql])

theorem strictServer_refuses (sql : Sql) (sent : List Sql) (h : parseInsert sql = none) :
    (strictServer sql sent).1 = false := by
  simp [strictServer, h]

/-- `InsertMetrics` on a fresh connection to the strict server: its result, the storage after it and the statements
it sent. -/
def sendToServer (storage : TimescaleStorage) (agentId : String) (base : Int64) (ms : List Metric) :
    Bool × TimescaleStorage × List Sql :=
  insertMetrics strictServer true storage [] agentId base ms

/-- The metrics went through, once and in order, each at its own millisecond. -/
structure InsertedInOrder (storage : TimescaleStorage) (agentId : String) (base : Int64) (ms : List Metric) : Prop where
  accepted : (sendToServer storage agentId base ms).1 = true
  /-- Every statement is an `INSERT`, and their rows in the order of sending are the metrics of the list. -/
  rows : ((sendToServer storage agentId base ms).2.2.mapM parseInsert).map List.flatten =
    some (stampedRows agentId base.toInt 0 ms)
  written : (sendToServer storage agentId base ms).2.1.metricsWritten = storage.metricsWritten + ms.length

variable {storage : TimescaleStorage} {agentId : String} {base : Int64} {ms : List Metric}

/-- A list that fits is one statement. -/
theorem sendToServer_fits (hms : ms ≠ []) (h : ms.length ≤ storage.chunk) :
    sendToServer storage agentId base ms =
      (true, { storage with metricsWritten := storage.metricsWritten + ms.length,
                            batchesWritten := storage.batchesWritten + 1 },
        [insertSql (rowsFrom agentId base 0 ms)]) := by
  unfold sendToServer
  rw [insertMetrics_fits storage [] agentId base hms h]
  simp [strictServer, parseInsert_insertSql (rowsFrom_ne_nil hms)]

theorem sendToServer_large (h : storage.chunk < ms.length) : (sendToServer storage agentId base ms).1 = false :=
  insertMetrics_large storage [] agentId base strictServer_refuses h

/-- **Order.** The metrics of a list are inserted in order exactly when they fit one statement and the stamp behind
the last one does not pass the last `int64_t`. -/
theorem insertMetrics_inOrder_iff (storage : TimescaleStorage) (agentId : String) (base : Int64) (ms : List Metric) :
    InsertedInOrder storage agentId base ms ↔
      ms.length ≤ storage.chunk ∧ base.toInt + ms.length ≤ 2 ^ 63 := by
  by_cases hms : ms = []
  · subst hms
    have hlt := base.toInt_lt
    exact ⟨fun _ => ⟨Nat.zero_le _, by simpa using hlt.le⟩, fun _ => ⟨rfl, rfl, rfl⟩⟩
  by_cases hfit : ms.length ≤ storage.chunk
  · have hsend : sendToServer storage agentId base ms =
        (true, { storage with metricsWritten := storage.metricsWritten + ms.length,
                              batchesWritten := storage.batchesWritten + 1 },
          [insertSql (rowsFrom agentId base 0 ms)]) := sendToServer_fits hms hfit
    have hparse : ((sendToServer storage agentId base ms).2.2.mapM parseInsert).map List.flatten =
        some (rowsFrom agentId base 0 ms) := by
      simp [hsend, parseInsert_insertSql (rowsFrom_ne_nil hms)]
    have hstamps := rowsFrom_eq_stampedRows_iff agentId base 0 ms
    simp only [hms, false_or, Int.natCast_zero, Int.add_zero] at hstamps
    constructor
    · intro h
      exact ⟨hfit, hstamps.1 (Option.some.inj (hparse.symm.trans h.rows))⟩
    · rintro ⟨-, hlast⟩
      exact ⟨by rw [hsend], by rw [hparse, hstamps.2 hlast], by rw [hsend]⟩
  · constructor
    · intro h
      have hlarge : (sendToServer storage agentId base ms).1 = false := sendToServer_large (by omega)
      exact absurd h.accepted (by simp [hlarge])
    · exact fun h => absurd h.1 hfit

/-- Two metrics at batch size one: the second statement has lost its prefix, and the call fails. -/
theorem second_statement_has_no_prefix :
    ¬ InsertedInOrder { batchSize := 1 } "agent-a" 1700000000000 [{ target := "1.1.1.1" }, { target := "8.8.8.8" }] ∧
      (sendToServer { batchSize := 1 } "agent-a" 1700000000000
        [{ target := "1.1.1.1" }, { target := "8.8.8.8" }]).2.2.map List.length = [3, 2] := by
  exact ⟨fun h => absurd h.accepted (by decide), by decide⟩

end PudimNetMon.Storage
