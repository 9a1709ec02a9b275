import PudimNetMon.Lib.Lowest
import PudimNetMon.Storage.Table

/-!
# `QueryMetricsJson` (`timescale_storage.cpp`)

The statement selects the rows of a window, in ascending order of their times and at most 10000 of them. So the newest
rows are the ones that are cut off (`newest_iff`).
-/

namespace PudimNetMon.Storage

/-! ## The statement -/

/-- `PQescapeLiteral` takes a text up to its first NUL. -/
def literalText (s : String) : String := String.ofList (s.toList.takeWhile (· ≠ '\x00'))

/-- The statement under construction. -/
structure MetricsSelect where
  windowSeconds : Int64
  agentId : Option String
  checkType : Option String
  limit : Nat
  deriving DecidableEq

def metricsSelect (agentId checkType : String) (windowSeconds : Int64) : MetricsSelect where
  windowSeconds := windowSeconds
  agentId := if agentId.isEmpty then none else some agentId
  checkType := if checkType.isEmpty then none else some checkType
  limit := 10000

def MetricsSelect.text (pqEscapeLiteral : String → Option String) (s : MetricsSelect) : String :=
  "SELECT   EXTRACT(EPOCH FROM time) * 1000 AS time_ms,   agent_id, check_type, target, success, " ++
  "  COALESCE(latency_ms, packet_loss_pct, jitter_ms, rtt_ms,            status_code::double precision, 0) " ++
  "AS value,   attributes FROM network_metrics WHERE time > now() - make_interval(secs => " ++
  toString s.windowSeconds.toInt ++ ")" ++
  (s.agentId.elim "" fun agentId => " AND agent_id = " ++ escapeLiteral pqEscapeLiteral agentId) ++
  (s.checkType.elim "" fun checkType => " AND check_type = " ++ escapeLiteral pqEscapeLiteral checkType) ++
  " ORDER BY time ASC LIMIT " ++ toString s.limit ++ ";"

section

variable (nowUs : Int)

/-- The `WHERE` clause; `now()` is in microseconds. -/
def MetricsSelect.selects (s : MetricsSelect) (r : MetricRow) : Bool :=
  nowUs - s.windowSeconds.toInt * 1000000 < r.timeMs * 1000 &&
    s.agentId.all (fun agentId => r.agentId = literalText agentId) &&
    s.checkType.all fun checkType => r.checkType = literalText checkType

/-- The rows of the `WHERE` clause. -/
def MetricsSelect.matching (s : MetricsSelect) (t : NetworkMetrics) : List MetricRow := t.rows.filter (s.selects nowUs)

/-- The rows of the statement. The database orders rows of one time as it likes: as they stand in the table. -/
def MetricsSelect.exec (s : MetricsSelect) (t : NetworkMetrics) : List MetricRow :=
  lowest MetricRow.timeMs s.limit (s.matching nowUs t)

/-! ## The answer -/

/-- The connection: how it quotes a text, and whether a statement succeeds. -/
structure Connection where
  pqEscapeLiteral : String → Option String
  accepts : String → Bool

def Connection.runs (conn : Connection) (s : MetricsSelect) : Bool := conn.accepts (s.text conn.pqEscapeLiteral)

/-- The rows that `QueryMetricsJson` writes: none without a connection, and none if the statement fails. -/
def queryMetrics (conn : Option Connection) (t : NetworkMetrics) (agentId checkType : String) (windowSeconds : Int64) :
    List MetricRow :=
  let s := metricsSelect agentId checkType windowSeconds
  match conn with
  | some conn => if conn.runs s then s.exec nowUs t else []
  | none => []

/-- `COALESCE(latency_ms, packet_loss_pct, jitter_ms, rtt_ms, status_code, 0)` -/
def MetricRow.value (r : MetricRow) : Double :=
  (r.latencyMs <|> r.packetLossPct <|> r.jitterMs <|> r.rttMs <|> r.statusCode.map Double.ofInt).getD (.ofInt 0)

/-- The texts in which PostgreSQL returns a time in milliseconds, a number and a JSON value. -/
structure PgText where
  timeMs : Int → String
  number : Double → String
  jsonb : String → String

def MetricRow.json (pg : PgText) (r : MetricRow) : String :=
  let value := pg.number r.value
  let attrs := pg.jsonb r.attributes
  "\x7b" ++ "\"time_ms\":" ++ pg.timeMs r.timeMs ++ "," ++ "\"agent_id\":\"" ++ jsonEscape r.agentId ++ "\"," ++
  "\"check_type\":\"" ++ jsonEscape r.checkType ++ "\"," ++ "\"target\":\"" ++ jsonEscape r.target ++ "\"," ++
  "\"success\":" ++ (if r.success then "true" else "false") ++ "," ++
  "\"value\":" ++ (if value.isEmpty then "0" else value) ++ "," ++
  (if attrs.isEmpty || attrs = "\x7b\x7d" then "\"attributes\":\x7b\x7d" else "\"attributes\":" ++ attrs) ++ "\x7d"

def queryMetricsJson (pg : PgText) (conn : Option Connection) (t : NetworkMetrics) (agentId checkType : String)
    (windowSeconds : Int64) : String :=
  "[" ++ ",".intercalate ((queryMetrics nowUs conn t agentId checkType windowSeconds).map (MetricRow.json pg)) ++ "]"

end

/-! ## The rows of the answer -/

section

variable {nowUs : Int} {t : NetworkMetrics}

theorem nodup_matching (s : MetricsSelect) : (s.matching nowUs t).Nodup := (List.Nodup.of_map _ t.nodup).filter _

/-- The rows of a statement that succeeds. -/
theorem upward_exec_iff (s : MetricsSelect) (hlimit : 0 < s.limit) :
    Upward MetricRow.timeMs (s.exec nowUs t) (s.matching nowUs t) ↔
      (s.matching nowUs t).length ≤ s.limit ∨
        ∀ r ∈ s.matching nowUs t, ∀ r' ∈ s.matching nowUs t, r.timeMs = r'.timeMs :=
  upward_lowest_iff hlimit (nodup_matching s)

theorem queryMetrics_of_runs {c : Connection} {agentId checkType : String} {windowSeconds : Int64}
    (h : c.runs (metricsSelect agentId checkType windowSeconds) = true) :
    queryMetrics nowUs (some c) t agentId checkType windowSeconds =
      (metricsSelect agentId checkType windowSeconds).exec nowUs t := by
  unfold queryMetrics
  exact if_pos h

end

/-- **The answer has the newest rows** exactly where nothing is cut off: where it is empty for an error, where at most
10000 rows match, or where all that match have one time. -/
theorem newest_iff (nowUs : Int) (conn : Option Connection) (t : NetworkMetrics) (agentId checkType : String)
    (windowSeconds : Int64) :
    let s := metricsSelect agentId checkType windowSeconds
    Upward MetricRow.timeMs (queryMetrics nowUs conn t agentId checkType windowSeconds) (s.matching nowUs t) ↔
      (∀ c ∈ conn, c.runs s = false) ∨ (s.matching nowUs t).length ≤ 10000 ∨
        ∀ r ∈ s.matching nowUs t, ∀ r' ∈ s.matching nowUs t, r.timeMs = r'.timeMs := by
  intro s
  have hempty : Upward MetricRow.timeMs [] (s.matching nowUs t) := List.forall_mem_nil _
  unfold queryMetrics
  cases conn with
  | none =>
    refine iff_of_true hempty (.inl ?_)
    rintro c ⟨⟩
  | some c =>
    dsimp only
    cases hruns : c.runs s with
    | false =>
      refine iff_of_true hempty (.inl ?_)
      rintro c' ⟨⟩
      exact hruns
    | true =>
      have hno : ¬ ∀ c' ∈ some c, c'.runs s = false := fun h => by
        rw [h c rfl] at hruns
        cases hruns
      rw [if_pos rfl, or_iff_right hno]
      have hlimit : 0 < s.limit := Nat.zero_lt_succ 9999
      exact upward_exec_iff s hlimit

/-! ## A table that is cut off -/

/-- A ping of one target, at a time. -/
def pingAt (timeMs : Nat) : MetricRow where
  timeMs := timeMs
  agentId := "agent-a"
  checkType := "icmp_ping"
  target := "1.1.1.1"
  success := true
  latencyMs := none
  packetLossPct := none
  jitterMs := none
  rttMs := none
  statusCode := none
  detail := none
  seq := 0
  monotonicUs := 0
  attributes := "\x7b\x7d"

theorem nodup_pings (n : Nat) : (((List.range n).map pingAt).map MetricRow.key).Nodup := by
  rw [List.map_map]
  refine List.nodup_range.map fun i j h => ?_
  exact Int.ofNat_inj.1 (congrArg MetricKey.timeMs h)

/-- A ping in each millisecond. -/
def pings (n : Nat) : NetworkMetrics := ⟨(List.range n).map pingAt, nodup_pings n⟩

theorem matching_pings (n : Nat) : (metricsSelect "" "" 300).matching 0 (pings n) = (List.range n).map pingAt := by
  unfold MetricsSelect.matching pings
  rw [List.filter_eq_self]
  intro r hr
  obtain ⟨i, -, rfl⟩ := List.mem_map.1 hr
  have hwindow : (0 : Int) - (300 : Int64).toInt * 1000000 < (i : Int) * 1000 := by
    have hseconds : (300 : Int64).toInt = 300 := by decide
    omega
  exact Bool.and_eq_true_iff.2 ⟨Bool.and_eq_true_iff.2 ⟨decide_eq_true hwindow, rfl⟩, rfl⟩

/-- The newest of 10001 rows is not in the answer. -/
theorem newest_ping_cut : ¬ Upward MetricRow.timeMs
    (queryMetrics 0 (some { pqEscapeLiteral := some, accepts := fun _ => true }) (pings 10001) "" "" 300)
    ((metricsSelect "" "" 300).matching 0 (pings 10001)) := by
  intro h
  rw [queryMetrics_of_runs rfl, upward_exec_iff _ (Nat.zero_lt_succ 9999)] at h
  rcases h with hfits | hsame
  · rw [matching_pings, List.length_map, List.length_range] at hfits
    exact absurd hfits (by decide)
  · rw [matching_pings] at hsame
    have hmem {i : Nat} (hi : i < 10001) : pingAt i ∈ (List.range 10001).map pingAt :=
      List.mem_map_of_mem (List.mem_range.2 hi)
    exact absurd (hsame (pingAt 0) (hmem (by omega)) (pingAt 1) (hmem (by omega))) (by decide)

end PudimNetMon.Storage
