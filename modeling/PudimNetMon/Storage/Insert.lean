import PudimNetMon.Metric

/-!
# `TimescaleStorage::InsertMetrics` (`timescale_storage.cpp`)

The text of a multi-row `INSERT` is built piece by piece: the prefix up to `VALUES`, commas, rows and the conflict
clause (`SqlPiece`, with `SqlPiece.text` for its characters). `insertMetrics` runs the source's loop over any database
`exec`, which is given a statement and says whether it succeeded.

- `insertMetrics_fits`: a list that fits one statement is sent as `insertSql` of its rows;
- `insertMetrics_large`: a longer list fails on every database that refuses what is not an `INSERT`, since the flush
  clears the text and nothing puts the prefix back.
-/

namespace PudimNetMon.Storage

/-- A row of `network_metrics`; `time` is exact milliseconds. -/
structure MetricRow where
  timeMs : Int
  agentId : String
  checkType : String
  target : String
  success : Bool
  latencyMs : Option Double
  packetLossPct : Option Double
  jitterMs : Option Double
  rttMs : Option Double
  statusCode : Option Int
  detail : Option String
  seq : Nat
  monotonicUs : Int
  /-- The body of the JSONB literal. -/
  attributes : String
  deriving DecidableEq, Repr

/-! ## The text of a row -/

def checkTypeToString : CheckType → String
  | .dnsResolution => "dns_resolution"
  | .tcpConnect => "tcp_connect"
  | .tlsHandshake => "tls_handshake"
  | .httpRequest => "http_request"
  | .icmpPing => "icmp_ping"
  | .jitter => "jitter"
  | .tlsCertificate => "tls_certificate"
  | .tcpRetransmit => "tcp_retransmit"
  | .dnsRecord => "dns_record"
  | .tcpHandshake => "tcp_handshake"
  | .ntpOffset => "ntp_offset"
  | .unspecified | .unrecognized _ => "unspecified"

/-- A character inside a JSON string; control characters without a short escape stay as they are. -/
def jsonEscapeChar : Char → List Char
  | '"' => ['\\', '"']
  | '\\' => ['\\', '\\']
  | '\n' => ['\\', 'n']
  | '\r' => ['\\', 'r']
  | '\t' => ['\\', 't']
  | c => [c]

def jsonEscape (s : String) : String := String.ofList (s.toList.flatMap jsonEscapeChar)

/-- The body of `AttributesJsonLiteral`. -/
def attributesBody (attrs : List (String × String)) : String :=
  "\x7b" ++
    ",".intercalate (attrs.map fun kv => "\"" ++ jsonEscape kv.1 ++ "\":\"" ++ jsonEscape kv.2 ++ "\"") ++ "\x7d"

section Text

-- `PQescapeLiteral`: the quoted literal of a string, or null
variable (pqEscapeLiteral : String → Option String)

def escapeLiteral (s : String) : String := if s.isEmpty then "''" else (pqEscapeLiteral s).getD "''"

def attributesJsonLiteral (body : String) : String :=
  match pqEscapeLiteral body with
  | some e => e ++ "::jsonb"
  | none => "'\x7b\x7d'::jsonb"

/-- `std::to_string((ts_ms % 1000) / 1000.0)`. -/
def milliText (k : Int) : String :=
  let s := toString k.natAbs
  (if k < 0 then "-" else "") ++ "0." ++ String.ofList (List.replicate (3 - s.length) '0') ++ s ++ "000"

def orNull (o : Option String) : String := o.getD "NULL"

def MetricRow.text (r : MetricRow) : String :=
  "(to_timestamp(" ++ toString (r.timeMs.tdiv 1000) ++ "::double precision + " ++ milliText (r.timeMs.tmod 1000) ++
  "), " ++ escapeLiteral pqEscapeLiteral r.agentId ++ ", " ++ "'" ++ r.checkType ++ "', " ++
  escapeLiteral pqEscapeLiteral r.target ++ ", " ++ (if r.success then "true" else "false") ++ ", " ++
  orNull (r.latencyMs.map Double.toFixed6) ++ ", " ++ orNull (r.packetLossPct.map Double.toFixed6) ++ ", " ++
  orNull (r.jitterMs.map Double.toFixed6) ++ ", " ++ orNull (r.rttMs.map Double.toFixed6) ++ ", " ++
  orNull (r.statusCode.map toString) ++ ", " ++ orNull (r.detail.map (escapeLiteral pqEscapeLiteral)) ++ ", " ++
  toString r.seq ++ ", " ++ toString r.monotonicUs ++ ", " ++
  attributesJsonLiteral pqEscapeLiteral r.attributes ++ ")"

/-- What the source appends to `sql` at one time. -/
inductive SqlPiece
  | insertInto
  | comma
  | row (r : MetricRow)
  | onConflict
  deriving DecidableEq, Repr

def insertPrefix : String :=
  "INSERT INTO network_metrics (time, agent_id, check_type, target, success,  latency_ms, packet_loss_pct, " ++
  "jitter_ms, rtt_ms,  status_code, detail, seq, monotonic_us, attributes) VALUES "

def SqlPiece.text : SqlPiece → String
  | .insertInto => insertPrefix
  | .comma => ","
  | .row r => r.text pqEscapeLiteral
  | .onConflict => " ON CONFLICT DO NOTHING;"

end Text

/-- The text under construction. -/
abbrev Sql := List SqlPiece

/-! ## Well-formed statements -/

/-- `row, row, ...` -/
def joinRows : List MetricRow → Sql
  | [] => []
  | r :: rs => .row r :: rs.flatMap fun r => [.comma, .row r]

/-- `INSERT INTO network_metrics (...) VALUES row, row, ... ON CONFLICT DO NOTHING;` -/
def insertSql (rows : List MetricRow) : Sql := .insertInto :: joinRows rows ++ [.onConflict]

/-- The rows behind the first one, up to the conflict clause. -/
def parseMore : Sql → Option (List MetricRow)
  | [.onConflict] => some []
  | .comma :: .row r :: rest => (parseMore rest).map (r :: ·)
  | _ => none

/-- The rows of a well-formed multi-row `INSERT`; none for any other text. -/
def parseInsert : Sql → Option (List MetricRow)
  | .insertInto :: .row r :: rest => (parseMore rest).map (r :: ·)
  | _ => none

theorem parseMore_rows (rows : List MetricRow) :
    parseMore ((rows.flatMap fun r => [.comma, .row r]) ++ [.onConflict]) = some rows := by
  induction rows with
  | nil => rfl
  | cons r rs ih =>
    simp only [List.flatMap_cons, List.cons_append, List.nil_append, parseMore, ih, Option.map_some]

theorem parseInsert_insertSql {rows : List MetricRow} (h : rows ≠ []) : parseInsert (insertSql rows) = some rows := by
  cases rows with
  | nil => exact absurd rfl h
  | cons r rs => simp only [insertSql, joinRows, List.cons_append, parseInsert, parseMore_rows, Option.map_some]

theorem parseMore_eq : ∀ {sql : Sql} {rows : List MetricRow}, parseMore sql = some rows →
    sql = (rows.flatMap fun r => [.comma, .row r]) ++ [.onConflict]
  | sql, rows, h => by
    unfold parseMore at h
    split at h
    · cases h; rfl
    · obtain ⟨rs, hr, rfl⟩ := Option.map_eq_some_iff.1 h
      rw [parseMore_eq hr]
      rfl
    · cases h

/-- A text with rows is the statement of these rows. -/
theorem parseInsert_eq {sql : Sql} {rows : List MetricRow} (h : parseInsert sql = some rows) :
    rows ≠ [] ∧ sql = insertSql rows := by
  unfold parseInsert at h
  split at h
  · obtain ⟨rs, hr, rfl⟩ := Option.map_eq_some_iff.1 h
    exact ⟨by simp, by rw [parseMore_eq hr]; rfl⟩
  · cases h

/-- A text that does not start with the prefix is no `INSERT`. -/
theorem parseInsert_headless {sql : Sql} (h : sql.head? ≠ some .insertInto) : parseInsert sql = none := by
  unfold parseInsert
  split
  · simp at h
  · rfl

/-! ## `InsertMetrics` -/

/-- The row of a metric at a time. -/
def metricRow (agentId : String) (tsMs : Int64) (m : Metric) : MetricRow :=
  { timeMs := tsMs.toInt, agentId := agentId, checkType := checkTypeToString m.checkType, target := m.target,
    success := m.success, latencyMs := m.latencyMs, packetLossPct := m.packetLossPct, jitterMs := m.jitterMs,
    rttMs := m.rttMs, statusCode := m.statusCode, detail := if m.detail.isEmpty then none else some m.detail,
    seq := m.seq, monotonicUs := m.monotonicUs, attributes := attributesBody m.attributes }

/-- The configuration and the counters of the storage. -/
structure TimescaleStorage where
  batchSize : Int32 := 500
  metricsWritten : Nat := 0
  batchesWritten : Nat := 0
  errors : Nat := 0
  deriving DecidableEq

section Insert

variable {σ : Type}

/-- The variables of `InsertMetrics` that the flush shares with the loop, and the database. -/
structure InsertState (σ : Type) where
  sql : Sql := [.insertInto]
  batchRows : Nat := 0
  totalInserted : Nat := 0
  firstValue : Bool := true
  batchesWritten : Nat
  errors : Nat
  db : σ

variable (exec : Sql → σ → Bool × σ)

/-- The `flush` lambda. The text is cleared whatever the outcome. -/
def flush (st : InsertState σ) : Bool × InsertState σ :=
  if st.batchRows = 0 then (true, st)
  else
    let (ok, db) := exec (st.sql ++ [.onConflict]) st.db
    if ok then
      (true, { st with sql := [], batchRows := 0, firstValue := true, db := db,
                       totalInserted := st.totalInserted + st.batchRows, batchesWritten := st.batchesWritten + 1 })
    else (false, { st with sql := [], batchRows := 0, firstValue := true, db := db, errors := st.errors + 1 })

/-- The loop body in front of the size check. The time is the batch time plus one millisecond for each metric before
this one; the sum is an `int64_t` one. -/
def appendRow (agentId : String) (base : Int64) (st : InsertState σ) (m : Metric) : InsertState σ :=
  let ts := base + Int64.ofNat (st.totalInserted + st.batchRows)
  { st with sql := st.sql ++ (if st.firstValue then [] else [.comma]) ++ [.row (metricRow agentId ts m)]
            firstValue := false, batchRows := st.batchRows + 1 }

/-- The loop over the metrics and the last flush. -/
def insertLoop (batchSize : Int32) (agentId : String) (base : Int64) : List Metric → InsertState σ →
    Bool × InsertState σ
  | [], st => flush exec st
  | m :: ms, st =>
    let st := appendRow agentId base st m
    if batchSize.toInt ≤ st.batchRows then
      let (ok, st) := flush exec st
      if ok then insertLoop batchSize agentId base ms st else (false, st)
    else insertLoop batchSize agentId base ms st

/-- `InsertMetrics`; `connected` is the connection's state after `EnsureConnected`. -/
def insertMetrics (connected : Bool) (storage : TimescaleStorage) (db : σ) (agentId : String) (base : Int64)
    (metrics : List Metric) : Bool × TimescaleStorage × σ :=
  if connected then
    let (ok, st) := insertLoop exec storage.batchSize agentId base metrics
      { batchesWritten := storage.batchesWritten, errors := storage.errors, db := db }
    let storage := { storage with batchesWritten := st.batchesWritten, errors := st.errors }
    if ok then (true, { storage with metricsWritten := storage.metricsWritten + st.totalInserted }, st.db)
    else (false, storage, st.db)
  else (false, storage, db)

/-! ## The rows of a list -/

/-- The rows of a list whose first metric is the `k`-th of its batch. -/
def rowsFrom (agentId : String) (base : Int64) : Nat → List Metric → List MetricRow
  | _, [] => []
  | k, m :: ms => metricRow agentId (base + Int64.ofNat k) m :: rowsFrom agentId base (k + 1) ms

theorem length_rowsFrom (agentId : String) (base : Int64) : ∀ (k : Nat) (ms : List Metric),
    (rowsFrom agentId base k ms).length = ms.length
  | _, [] => rfl
  | k, _ :: ms => by simp [rowsFrom, length_rowsFrom agentId base (k + 1) ms]

theorem rowsFrom_ne_nil {agentId : String} {base : Int64} {k : Nat} {ms : List Metric} (h : ms ≠ []) :
    rowsFrom agentId base k ms ≠ [] := by
  cases ms with
  | nil => exact absurd rfl h
  | cons m ms => simp [rowsFrom]

theorem joinRows_snoc (rs : List MetricRow) (r : MetricRow) :
    joinRows (rs ++ [r]) = joinRows rs ++ (if rs.isEmpty then [] else [.comma]) ++ [.row r] := by
  cases rs with
  | nil => rfl
  | cons x xs => simp [joinRows]

/-- The rows put into the text since it was last cleared, behind `head`. -/
structure Holds (head : Sql) (rows : List MetricRow) (st : InsertState σ) : Prop where
  sql : st.sql = head ++ joinRows rows
  batchRows : st.batchRows = rows.length
  firstValue : st.firstValue = rows.isEmpty

variable {exec} {head : Sql} {rows : List MetricRow} {st : InsertState σ} {storage : TimescaleStorage}
  {agentId : String} {base : Int64} {ms : List Metric}

theorem Holds.appendRow (h : Holds head rows st) (agentId : String) (base : Int64) (m : Metric) :
    Holds head (rows ++ [metricRow agentId (base + Int64.ofNat (st.totalInserted + rows.length)) m])
      (appendRow agentId base st m) := by
  constructor
  · simp only [Storage.appendRow, joinRows_snoc, h.sql, h.batchRows, h.firstValue, List.append_assoc]
  · simp [Storage.appendRow, h.batchRows]
  · simp [Storage.appendRow]

/-- Appending rows only changes the text and its row count. -/
theorem foldl_appendRow_rest (agentId : String) (base : Int64) (ms : List Metric) (st : InsertState σ) :
    (ms.foldl (appendRow agentId base) st).totalInserted = st.totalInserted ∧
      (ms.foldl (appendRow agentId base) st).batchesWritten = st.batchesWritten ∧
      (ms.foldl (appendRow agentId base) st).errors = st.errors ∧
      (ms.foldl (appendRow agentId base) st).db = st.db := by
  induction ms generalizing st with
  | nil => exact ⟨rfl, rfl, rfl, rfl⟩
  | cons m ms ih => exact ih (appendRow agentId base st m)

theorem Holds.foldl_appendRow (agentId : String) (base : Int64) (ms : List Metric) {rows : List MetricRow}
    {st : InsertState σ} (h : Holds head rows st) :
    Holds head (rows ++ rowsFrom agentId base (st.totalInserted + rows.length) ms)
      (ms.foldl (Storage.appendRow agentId base) st) := by
  induction ms generalizing rows st with
  | nil => simpa [rowsFrom] using h
  | cons m ms ih =>
    have := ih (h.appendRow agentId base m)
    simp only [List.length_append, List.length_singleton, ← Nat.add_assoc, List.append_assoc,
      List.singleton_append] at this
    exact this

/-- The number of rows at which the loop flushes: a batch size below one flushes after every row. -/
def TimescaleStorage.chunk (storage : TimescaleStorage) : Nat := max 1 storage.batchSize.toInt.toNat

theorem chunk_le_iff {k : Nat} (hk : 1 ≤ k) : storage.chunk ≤ k ↔ storage.batchSize.toInt ≤ k := by
  unfold TimescaleStorage.chunk
  omega

theorem one_le_chunk (storage : TimescaleStorage) : 1 ≤ storage.chunk := Nat.le_max_left ..

@[simp] theorem appendRow_batchRows (m : Metric) : (appendRow agentId base st m).batchRows = st.batchRows + 1 := rfl

/-- A flush that finds no row does nothing. -/
theorem flush_empty (h : st.batchRows = 0) : flush exec st = (true, st) := by
  simp [flush, h]

/-- The flush of a text with rows. -/
theorem flush_rows (h : st.batchRows ≠ 0) :
    flush exec st =
      ((exec (st.sql ++ [.onConflict]) st.db).1,
        if (exec (st.sql ++ [.onConflict]) st.db).1 then
          { sql := [], batchRows := 0, totalInserted := st.totalInserted + st.batchRows, firstValue := true,
            batchesWritten := st.batchesWritten + 1, errors := st.errors,
            db := (exec (st.sql ++ [.onConflict]) st.db).2 }
        else
          { sql := [], batchRows := 0, totalInserted := st.totalInserted, firstValue := true,
            batchesWritten := st.batchesWritten, errors := st.errors + 1,
            db := (exec (st.sql ++ [.onConflict]) st.db).2 }) := by
  unfold flush
  rw [if_neg h]
  cases h' : (exec (st.sql ++ [.onConflict]) st.db).1 <;> simp [h']

/-- Rows below the chunk size are appended without a flush. -/
theorem insertLoop_fill {ms : List Metric} (rest : List Metric) {st : InsertState σ}
    (h : st.batchRows + ms.length < storage.chunk) :
    insertLoop exec storage.batchSize agentId base (ms ++ rest) st =
      insertLoop exec storage.batchSize agentId base rest (ms.foldl (appendRow agentId base) st) := by
  induction ms generalizing st with
  | nil => rfl
  | cons m ms ih =>
    rw [List.length_cons] at h
    have hlt : ¬ storage.batchSize.toInt ≤ ((appendRow agentId base st m).batchRows : Int) := by
      rw [← chunk_le_iff (by simp), appendRow_batchRows]
      omega
    rw [List.cons_append, insertLoop]
    simp only [hlt, if_false, List.foldl_cons]
    exact ih (by rw [appendRow_batchRows]; omega)

/-- The row that completes a chunk. -/
theorem insertLoop_full {m : Metric} {rest : List Metric} (h : st.batchRows + 1 = storage.chunk) :
    insertLoop exec storage.batchSize agentId base (m :: rest) st =
      if (flush exec (appendRow agentId base st m)).1 then
        insertLoop exec storage.batchSize agentId base rest (flush exec (appendRow agentId base st m)).2
      else (false, (flush exec (appendRow agentId base st m)).2) := by
  have hle : storage.batchSize.toInt ≤ ((appendRow agentId base st m).batchRows : Int) :=
    (chunk_le_iff (by simp)).1 (by simp [← h])
  rw [insertLoop]
  simp only [hle, if_true]

theorem foldl_batchRows (agentId : String) (base : Int64) (ms : List Metric) (st : InsertState σ) :
    (ms.foldl (appendRow agentId base) st).batchRows = st.batchRows + ms.length := by
  induction ms generalizing st with
  | nil => rfl
  | cons m ms ih =>
    rw [List.foldl_cons, ih, appendRow_batchRows, List.length_cons]
    omega

/-- The metrics that complete a chunk. -/
theorem insertLoop_chunk {rest : List Metric} (hms : ms ≠ []) (h : st.batchRows + ms.length = storage.chunk) :
    insertLoop exec storage.batchSize agentId base (ms ++ rest) st =
      if (flush exec (ms.foldl (appendRow agentId base) st)).1 then
        insertLoop exec storage.batchSize agentId base rest (flush exec (ms.foldl (appendRow agentId base) st)).2
      else (false, (flush exec (ms.foldl (appendRow agentId base) st)).2) := by
  obtain ⟨front, m, rfl⟩ := List.eq_nil_or_concat ms |>.resolve_left hms
  rw [List.concat_eq_append, List.length_append, List.length_singleton] at h
  rw [List.concat_eq_append, List.append_assoc, List.singleton_append, insertLoop_fill _ (by omega),
    insertLoop_full (by rw [foldl_batchRows]; omega), List.foldl_append, List.foldl_cons, List.foldl_nil]

theorem flush_snd_batchRows : (flush exec st).2.batchRows = 0 := by
  by_cases h : st.batchRows = 0
  · rw [flush_empty h, h]
  · rw [flush_rows h]
    split <;> rfl

/-- Metrics that stay within a chunk are flushed once. -/
theorem insertLoop_fits (hms : ms ≠ []) (h : st.batchRows + ms.length ≤ storage.chunk) :
    insertLoop exec storage.batchSize agentId base ms st = flush exec (ms.foldl (appendRow agentId base) st) := by
  rw [← List.append_nil ms]
  rcases Nat.lt_or_eq_of_le h with hlt | heq
  · rw [insertLoop_fill _ hlt, insertLoop, List.append_nil]
  · rw [insertLoop_chunk hms heq, List.append_nil, insertLoop, flush_empty flush_snd_batchRows]
    cases hf : (flush exec (ms.foldl (appendRow agentId base) st)).1 <;> simp [Prod.ext_iff, hf]

/-- Metrics that follow a flush reach the database without the prefix. -/
theorem insertLoop_bare (hexec : ∀ sql db, parseInsert sql = none → (exec sql db).1 = false)
    (hms : ms ≠ []) (h : Holds [] [] st) :
    (insertLoop exec storage.batchSize agentId base ms st).1 = false := by
  have hchunk := one_le_chunk storage
  have hbare : ∀ {part : List Metric}, part ≠ [] →
      (flush exec (part.foldl (appendRow agentId base) st)).1 = false := by
    intro part hpart
    have hp := h.foldl_appendRow agentId base part
    cases part with
    | nil => exact absurd rfl hpart
    | cons m part =>
      rw [flush_rows (by rw [hp.batchRows]; simp [rowsFrom]), hp.sql]
      refine hexec _ _ (parseInsert_headless ?_)
      simp [rowsFrom, joinRows]
  have hb : st.batchRows = 0 := h.batchRows
  by_cases hle : ms.length ≤ storage.chunk
  · rw [insertLoop_fits hms (by omega)]
    exact hbare hms
  · have htake : ms.take storage.chunk ≠ [] := by
      intro ht
      have := congrArg List.length ht
      rw [List.length_take] at this
      simp only [List.length_nil] at this
      omega
    rw [← List.take_append_drop storage.chunk ms, insertLoop_chunk htake (by rw [List.length_take]; omega),
      hbare htake]
    rfl

/-! ## What reaches the database -/

/-- The state in which the loop starts. -/
abbrev startState (storage : TimescaleStorage) (db : σ) : InsertState σ :=
  { batchesWritten := storage.batchesWritten, errors := storage.errors, db := db }

theorem holds_start (storage : TimescaleStorage) (db : σ) : Holds [.insertInto] [] (startState storage db) :=
  ⟨rfl, rfl, rfl⟩

/-- **One statement.** A list that fits is sent as the `INSERT` of its rows, and the outcome is the statement's. -/
theorem insertMetrics_fits (storage : TimescaleStorage) (db : σ) (agentId : String) (base : Int64)
    (hms : ms ≠ []) (h : ms.length ≤ storage.chunk) :
    insertMetrics exec true storage db agentId base ms =
      if (exec (insertSql (rowsFrom agentId base 0 ms)) db).1 then
        (true, { storage with metricsWritten := storage.metricsWritten + ms.length,
                              batchesWritten := storage.batchesWritten + 1 },
          (exec (insertSql (rowsFrom agentId base 0 ms)) db).2)
      else (false, { storage with errors := storage.errors + 1 },
        (exec (insertSql (rowsFrom agentId base 0 ms)) db).2) := by
  have hold := (holds_start storage db).foldl_appendRow agentId base ms
  obtain ⟨ht, hw, he, hd⟩ := foldl_appendRow_rest agentId base ms (startState storage db)
  have hsql : (ms.foldl (appendRow agentId base) (startState storage db)).sql ++ [.onConflict] =
      insertSql (rowsFrom agentId base 0 ms) := by
    rw [hold.sql]
    rfl
  have hrows : (ms.foldl (appendRow agentId base) (startState storage db)).batchRows = ms.length := by
    rw [foldl_batchRows, Nat.zero_add]
  unfold insertMetrics
  rw [if_pos rfl, insertLoop_fits hms (by simpa using h),
    flush_rows (by rw [hrows]; exact fun h => hms (List.eq_nil_of_length_eq_zero h)), hsql, hrows, ht, hw, he, hd]
  cases (exec (insertSql (rowsFrom agentId base 0 ms)) db).1 <;> simp

/-- **Two statements.** A longer list fails where what is not an `INSERT` is refused. -/
theorem insertMetrics_large (storage : TimescaleStorage) (db : σ) (agentId : String) (base : Int64)
    (hexec : ∀ sql db, parseInsert sql = none → (exec sql db).1 = false) (h : storage.chunk < ms.length) :
    (insertMetrics exec true storage db agentId base ms).1 = false := by
  have hchunk := one_le_chunk storage
  have htake : ms.take storage.chunk ≠ [] := by
    intro ht
    have := congrArg List.length ht
    rw [List.length_take] at this
    simp only [List.length_nil] at this
    omega
  have hdrop : ms.drop storage.chunk ≠ [] := by
    intro hd
    have := congrArg List.length hd
    rw [List.length_drop] at this
    simp only [List.length_nil] at this
    omega
  unfold insertMetrics
  rw [if_pos rfl]
  suffices hloop : (insertLoop exec storage.batchSize agentId base ms (startState storage db)).1 = false by
    simp [hloop]
  rw [← List.take_append_drop storage.chunk ms, insertLoop_chunk htake (by rw [List.length_take]; simp; omega)]
  split
  · rename_i hok
    refine insertLoop_bare hexec hdrop ?_
    rw [flush_rows (by rw [foldl_batchRows, List.length_take]; omega)] at hok ⊢
    rw [if_pos hok]
    exact ⟨rfl, rfl, rfl⟩
  · rfl

end Insert

end PudimNetMon.Storage
