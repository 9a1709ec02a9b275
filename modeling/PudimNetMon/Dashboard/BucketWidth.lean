import PudimNetMon.Dashboard.Buckets

/-!
# How many rows (`derive.ts`)

`pickBucketMs` takes the width of the buckets from the window and the cadence of the samples, so that a chart has some
hundred rows. The rows go on to the first and the last sample, though, wherever these lie (`rows_bounded_iff`).
-/

namespace PudimNetMon.Dashboard

/-! ## The width -/

def bucketStepsMs : List ℚ :=
  [250, 500, 1000, 2000, 5000, 10000, 15000, 30000, 60000, 120000, 300000, 600000, 900000, 1800000, 3600000]

def defaultCadenceMs : ℚ := 1000

def maxBuckets : ℚ := 360

/-- The times of the successful samples, by series. -/
def bySeries (metrics : List MetricPoint) : List (String × List ℚ) :=
  metrics.foldl (fun bySeries m =>
    if m.success then
      setKey (m.checkType ++ "\x00" ++ m.agentId ++ "\x00" ++ m.target)
        (fun times => times.getD [] ++ [m.timeMs]) bySeries
    else bySeries) []

def sorted (l : List ℚ) : List ℚ := l.mergeSort fun a b => a ≤ b

/-- The gaps of sorted times. -/
def gapsOf : List ℚ → List ℚ
  | [] => []
  | [_] => []
  | t :: u :: times => (u - t) :: gapsOf (u :: times)

/-- The upper quartile of the gaps. -/
def cadenceOf (metrics : List MetricPoint) : ℚ :=
  let gaps := sorted ((bySeries metrics).flatMap fun series => gapsOf (sorted series.2))
  (gaps[gaps.length * 3 / 4]?).getD defaultCadenceMs

def pickBucketMs (windowSeconds : ℚ) (metrics : List MetricPoint) : ℚ :=
  let spanMs := windowSeconds * 1000
  let target := max (cadenceOf metrics) (spanMs / maxBuckets)
  (bucketStepsMs.find? fun s => s ≥ target).getD 3600000

theorem pickBucketMs_mem (windowSeconds : ℚ) (metrics : List MetricPoint) :
    pickBucketMs windowSeconds metrics ∈ bucketStepsMs := by
  unfold pickBucketMs
  dsimp only
  cases hfind : bucketStepsMs.find? fun s => s ≥ max (cadenceOf metrics) (windowSeconds * 1000 / maxBuckets) with
  | none => decide +kernel
  | some s => exact List.mem_of_find?_eq_some hfind

theorem pickBucketMs_pos (windowSeconds : ℚ) (metrics : List MetricPoint) : 0 < pickBucketMs windowSeconds metrics :=
  (by decide +kernel : ∀ s ∈ bucketStepsMs, 0 < s) _ (pickBucketMs_mem windowSeconds metrics)

/-! ## The rows between two times -/

section

variable (bucketMs : ℚ) (range : ℚ × ℚ) (metrics : List MetricPoint)

/-- The rows that a range should have at most. -/
def rowBound : ℚ := (range.2 - range.1) / bucketMs + 2

/-- From no time of the range's start and the metrics to one of its end and the metrics there are more buckets than the
range should have rows. -/
def FitsRange : Prop :=
  0 ≤ rowBound bucketMs range ∧ ∀ t ∈ range.1 :: metrics.map (·.timeMs), ∀ u ∈ range.2 :: metrics.map (·.timeMs),
    ⌊t / bucketMs⌋ ≤ ⌊u / bucketMs⌋ → ((⌊u / bucketMs⌋ - ⌊t / bucketMs⌋ + 1 : ℤ) : ℚ) ≤ rowBound bucketMs range

end

section

variable {bucketMs : ℚ} {range : ℚ × ℚ} {metrics : List MetricPoint}

theorem spanned_range_iff (hpos : 0 < bucketMs) (k : ℤ) :
    Spanned bucketMs metrics (some range) (k * bucketMs) ↔
      (∃ t ∈ range.1 :: metrics.map (·.timeMs), ⌊t / bucketMs⌋ ≤ k) ∧
        ∃ u ∈ range.2 :: metrics.map (·.timeMs), k ≤ ⌊u / bucketMs⌋ := by
  simp [Spanned, bucketOf, mul_le_mul_iff_left₀ hpos]

/-- The rows are as many as the buckets from the first to the last one. -/
theorem length_rowsOf_le_iff (hpos : 0 < bucketMs) (row : ℚ → SeriesPoint) :
    ((rowsOf bucketMs (some range) metrics row).length : ℚ) ≤ rowBound bucketMs range ↔
      FitsRange bucketMs range metrics := by
  obtain ⟨first, n, hgrid⟩ := exists_grid hpos (some range) metrics
  have hspanned (k : ℤ) := (spanned_range_iff hpos k).symm.trans (hgrid.spanned k)
  rw [rows_of_grid hgrid, List.length_map, List.length_range]
  constructor
  · intro h
    refine ⟨(Nat.cast_nonneg n).trans h, fun t ht u hu hle => ?_⟩
    have hlow := (hspanned ⌊t / bucketMs⌋).1 ⟨⟨t, ht, le_rfl⟩, u, hu, hle⟩
    have hhigh := (hspanned ⌊u / bucketMs⌋).1 ⟨⟨t, ht, hle⟩, u, hu, le_rfl⟩
    have hcount : ⌊u / bucketMs⌋ - ⌊t / bucketMs⌋ + 1 ≤ (n : ℤ) := by omega
    exact (Int.cast_le.2 hcount).trans (by simpa using h)
  · rintro ⟨hnonneg, h⟩
    rcases Nat.eq_zero_or_pos n with rfl | hn
    · simpa using hnonneg
    · obtain ⟨⟨t, ht, hle⟩, -⟩ := (hspanned first).2 (by omega)
      obtain ⟨-, u, hu, hle'⟩ := (hspanned (first + (n - 1 : Nat))).2 (by omega)
      have hcount : (n : ℤ) ≤ ⌊u / bucketMs⌋ - ⌊t / bucketMs⌋ + 1 := by omega
      have hcast : (n : ℚ) ≤ ((⌊u / bucketMs⌋ - ⌊t / bucketMs⌋ + 1 : ℤ) : ℚ) := by exact_mod_cast hcount
      exact hcast.trans (h t ht u hu (by omega))

/-- Metrics inside the range. -/
theorem fitsRange_of_inside (hpos : 0 < bucketMs) (hrange : range.1 ≤ range.2)
    (h : ∀ m ∈ metrics, range.1 ≤ m.timeMs ∧ m.timeMs ≤ range.2) : FitsRange bucketMs range metrics := by
  have hle {x y : ℚ} (hxy : x ≤ y) : x / bucketMs ≤ y / bucketMs := (div_le_div_iff_of_pos_right hpos).2 hxy
  have hspan : 0 ≤ (range.2 - range.1) / bucketMs := div_nonneg (sub_nonneg.2 hrange) hpos.le
  refine ⟨by unfold rowBound; linarith, fun t ht u hu _ => ?_⟩
  have hlow : range.1 ≤ t := by
    rcases List.mem_cons.1 ht with rfl | ht
    · exact le_rfl
    · obtain ⟨m, hm, rfl⟩ := List.mem_map.1 ht
      exact (h m hm).1
  have hhigh : u ≤ range.2 := by
    rcases List.mem_cons.1 hu with rfl | hu
    · exact le_rfl
    · obtain ⟨m, hm, rfl⟩ := List.mem_map.1 hu
      exact (h m hm).2
  have hu := (Int.floor_le (u / bucketMs)).trans (hle hhigh)
  have ht := (hle hlow).trans_lt (Int.lt_floor_add_one (t / bucketMs))
  unfold rowBound
  rw [sub_div]
  push_cast
  linarith

end

/-- **The rows of the charts are bounded by the range** exactly where the metrics do not reach beyond it by more buckets
than the bound leaves: the successful ones, all of them, those of the NTP checks. -/
theorem rows_bounded_iff (localeTime : ℚ → String) (metrics : List MetricPoint) (range : ℚ × ℚ) (windowSeconds : ℚ)
    (fetched : List MetricPoint) (includeCheckType : Bool) :
    let bucketMs := pickBucketMs windowSeconds fetched
    let options : SeriesOptions := { bucketMs, includeCheckType, rangeMs := some range }
    (((buildChartData localeTime metrics options).length : ℚ) ≤ rowBound bucketMs range ↔
        FitsRange bucketMs range (metrics.filter (·.success))) ∧
      (((buildOutcomeRows localeTime metrics options).length : ℚ) ≤ rowBound bucketMs range ↔
        FitsRange bucketMs range metrics) ∧
      (((buildNtpSeries localeTime metrics options).length : ℚ) ≤ rowBound bucketMs range ↔
        FitsRange bucketMs range (metrics.filter fun m => m.checkType = "ntp_offset" && m.success)) := by
  intro bucketMs options
  have hpos : 0 < bucketMs := pickBucketMs_pos windowSeconds fetched
  refine ⟨?_, ?_, ?_⟩
  · rw [buildChartData, buildBucketedRows_eq localeTime _ _ hpos]
    exact length_rowsOf_le_iff hpos _
  · rw [buildOutcomeRows, if_neg (not_le.2 hpos)]
    exact length_rowsOf_le_iff hpos _
  · rw [buildNtpSeries, buildBucketedRows_eq localeTime _ _ hpos]
    exact length_rowsOf_le_iff hpos _

/-- A sample of an agent whose clock is a day ahead. -/
def dayAhead : MetricPoint where
  timeMs := 86700000
  agentId := "edge"
  checkType := "icmp_ping"
  target := "example.com"
  success := true
  value := .ofInt 12

/-- **A day of rows** for five minutes. -/
theorem day_of_rows :
    let options : SeriesOptions := { bucketMs := pickBucketMs 300 [dayAhead], rangeMs := some (0, 300000) }
    pickBucketMs 300 [dayAhead] = 1000 ∧
      ¬ ((buildChartData toString [dayAhead] options).length : ℚ) ≤ rowBound options.bucketMs (0, 300000) := by
  intro options
  have hwidth : pickBucketMs 300 [dayAhead] = 1000 := by decide +kernel
  refine ⟨hwidth, fun h => ?_⟩
  rw [buildChartData, buildBucketedRows_eq toString _ _ (pickBucketMs_pos 300 [dayAhead])] at h
  have hfits := (length_rowsOf_le_iff (pickBucketMs_pos 300 [dayAhead]) _).1 h
  rw [hwidth] at hfits
  have hlast : (86700000 : ℚ) ∈ (300000 : ℚ) :: [dayAhead].map (·.timeMs) := List.mem_cons_of_mem _ List.mem_cons_self
  have hcount := hfits.2 0 List.mem_cons_self 86700000 hlast (by decide +kernel)
  exact absurd hcount (by decide +kernel)

end PudimNetMon.Dashboard
