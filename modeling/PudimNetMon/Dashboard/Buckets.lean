import Mathlib.Data.List.Induction
import Mathlib.Tactic.Linarith
import PudimNetMon.Dashboard.Charts

/-!
# What the rows of a chart say (`derive.ts`)

A row has the time of its bucket and, for each label with a sample in it, their mean to three decimals. The labels are
keys of the row, as the time is, so a label can be the key of a time, and the mean is computed in doubles
(`bucketed_iff`). The labels of the metrics charts are none of these keys, those of the NTP chart are the ids of the
agents.

- `lookup_valuesOf`: the samples of a bucket and a label, as `Map`s;
- `get?_rowOf`: the entries of a row.
-/

namespace PudimNetMon.Dashboard

/-! ## Rows and samples -/

/-- `row[key]`, of the row's own keys. -/
def SeriesPoint.get? (row : SeriesPoint) (key : String) : Option Cell :=
  if key = "time_ms" then some row.timeMs
  else if key = "time" then some row.time
  else row.series.lookup key

def buildNtpSeries (localeTime : ℚ → String) (metrics : List MetricPoint) (options : SeriesOptions) :
    List SeriesPoint :=
  buildBucketedRows localeTime (metrics.filter fun m => m.checkType = "ntp_offset" && m.success) (·.agentId)
    options.bucketMs options.rangeMs

section

variable (labelOf : MetricPoint → String) (bucketMs : ℚ) (metrics : List MetricPoint)

/-- The values of a label's samples in a bucket. -/
def samplesOf (b : ℚ) (label : String) : List Double :=
  (metrics.filter fun m => bucketOf bucketMs m.timeMs = b ∧ labelOf m = label).map (·.value)

/-- The mean of the samples to three decimals; none if there are none. -/
def meanOf (samples : List Double) : Option Cell := if samples = [] then none else some (roundedMean samples)

/-- The rows are those of buckets one after the other: each has the time of its bucket, each metric lies in the bucket
of exactly one of them, and the entry of a label is the mean of its samples in the bucket to three decimals. -/
structure Bucketed (first : ℤ) (rows : List SeriesPoint) : Prop where
  time : ∀ (i : Nat) (row : SeriesPoint), rows[i]? = some row → row.timeMs = .number (((first + i : ℤ) : ℚ) * bucketMs)
  one_row : ∀ m ∈ metrics, ∃! i : Nat, i < rows.length ∧ bucketOf bucketMs m.timeMs = ((first + i : ℤ) : ℚ) * bucketMs
  entry : ∀ (i : Nat) (row : SeriesPoint), rows[i]? = some row → ∀ m ∈ metrics,
    row.get? (labelOf m) = meanOf (samplesOf labelOf bucketMs metrics (((first + i : ℤ) : ℚ) * bucketMs) (labelOf m))

/-- A bucket between those of the range and of the metrics. -/
def Spanned (rangeMs : Option (ℚ × ℚ)) (b : ℚ) : Prop :=
  ((∃ r ∈ rangeMs, bucketOf bucketMs r.1 ≤ b) ∨ ∃ m ∈ metrics, bucketOf bucketMs m.timeMs ≤ b) ∧
    ((∃ r ∈ rangeMs, b ≤ bucketOf bucketMs r.2) ∨ ∃ m ∈ metrics, b ≤ bucketOf bucketMs m.timeMs)

/-- A label is a key of the row's own only where no row has it from something else. -/
structure Unclashing (rangeMs : Option (ℚ × ℚ)) : Prop where
  proto : ∀ m ∈ metrics, labelOf m ≠ "__proto__"
  time : ∀ m ∈ metrics, labelOf m = "time" → ∀ k : ℤ, Spanned bucketMs metrics rangeMs (k * bucketMs) →
    samplesOf labelOf bucketMs metrics (k * bucketMs) "time" ≠ []
  time_ms : ∀ m ∈ metrics, labelOf m = "time_ms" → ∀ k : ℤ, Spanned bucketMs metrics rangeMs (k * bucketMs) →
    meanOf (samplesOf labelOf bucketMs metrics (k * bucketMs) "time_ms") = some (.number (k * bucketMs))

/-- In each bucket the roundings of the operations leave the mean of each label at its thousandth. -/
def AllSteady : Prop :=
  ∀ m ∈ metrics, Steady (samplesOf labelOf bucketMs metrics (bucketOf bucketMs m.timeMs) (labelOf m))

end

/-! ## `Map`s -/

section

variable {κ υ : Type} [DecidableEq κ] {key : κ} {f : Option υ → υ}

theorem lookup_cons_ite (k k' : κ) (v : υ) (entries : List (κ × υ)) :
    ((k', v) :: entries).lookup k = if k = k' then some v else entries.lookup k := by
  rw [List.lookup_cons]
  by_cases h : k = k'
  · rw [h, beq_self_eq_true, if_pos rfl]
  · rw [beq_eq_false_iff_ne.2 h, if_neg h]

theorem lookup_setKey (entries : List (κ × υ)) (k : κ) :
    (setKey key f entries).lookup k = if k = key then some (f (entries.lookup key)) else entries.lookup k := by
  induction entries with
  | nil => exact lookup_cons_ite k key (f none) []
  | cons e entries ih =>
    obtain ⟨k', v⟩ := e
    rw [setKey]
    by_cases hkey : k' = key
    · rw [if_pos hkey, hkey, lookup_cons_ite, lookup_cons_ite, lookup_cons_ite, if_pos rfl]
      split <;> rfl
    · rw [if_neg hkey, lookup_cons_ite, lookup_cons_ite, lookup_cons_ite, ih, if_neg (Ne.symm hkey)]
      by_cases h : k = k'
      · rw [if_pos h, if_pos h, if_neg (h ▸ hkey)]
      · rw [if_neg h, if_neg h]

theorem mem_keys_setKey {entries : List (κ × υ)} {k : κ} :
    k ∈ (setKey key f entries).map Prod.fst ↔ k = key ∨ k ∈ entries.map Prod.fst := by
  induction entries with
  | nil => simp [setKey]
  | cons e entries ih =>
    obtain ⟨k', v⟩ := e
    rw [setKey]
    split
    · rename_i hkey
      simp [hkey]
    · rw [List.map_cons, List.mem_cons, ih, List.map_cons, List.mem_cons]
      exact or_left_comm

theorem nodup_setKey {entries : List (κ × υ)} (h : (entries.map Prod.fst).Nodup) :
    ((setKey key f entries).map Prod.fst).Nodup := by
  induction entries with
  | nil => simp [setKey]
  | cons e entries ih =>
    obtain ⟨k', v⟩ := e
    rw [List.map_cons, List.nodup_cons] at h
    rw [setKey]
    split
    · exact List.nodup_cons.2 h
    · rename_i hkey
      refine List.nodup_cons.2 ⟨fun hmem => ?_, ih h.2⟩
      rcases mem_keys_setKey.1 hmem with heq | hmem
      · exact hkey heq
      · exact h.1 hmem

end

/-! ## The entries of a row -/

section

variable {labelOf : MetricPoint → String} {bucketMs : ℚ} {metrics : List MetricPoint} {m : MetricPoint} {b : ℚ}
  {label key : String}

theorem samplesOf_concat (h : bucketOf bucketMs m.timeMs = b ∧ labelOf m = label) :
    samplesOf labelOf bucketMs (metrics ++ [m]) b label = samplesOf labelOf bucketMs metrics b label ++ [m.value] := by
  simp [samplesOf, List.filter_append, h]

theorem samplesOf_concat_other (h : ¬ (bucketOf bucketMs m.timeMs = b ∧ labelOf m = label)) :
    samplesOf labelOf bucketMs (metrics ++ [m]) b label = samplesOf labelOf bucketMs metrics b label := by
  simp [samplesOf, List.filter_append, h]

theorem samplesOf_ne_nil_iff :
    samplesOf labelOf bucketMs metrics b label ≠ [] ↔
      ∃ m ∈ metrics, bucketOf bucketMs m.timeMs = b ∧ labelOf m = label := by
  simp [samplesOf, List.filter_eq_nil_iff]

theorem valuesOf_concat : valuesOf labelOf bucketMs (metrics ++ [m]) =
    setKey (bucketOf bucketMs m.timeMs)
      (fun byLabel => setKey (labelOf m) (fun list => list.getD [] ++ [m.value]) (byLabel.getD []))
      (valuesOf labelOf bucketMs metrics) := by
  rw [valuesOf, List.foldl_append]
  rfl

/-- The samples of a bucket and a label are in the order of the metrics. -/
theorem lookup_valuesOf (labelOf : MetricPoint → String) (bucketMs : ℚ) (metrics : List MetricPoint) (b : ℚ)
    (label : String) :
    (((valuesOf labelOf bucketMs metrics).lookup b).getD []).lookup label =
      if samplesOf labelOf bucketMs metrics b label = [] then none
      else some (samplesOf labelOf bucketMs metrics b label) := by
  induction metrics using List.reverseRecOn with
  | nil => rfl
  | append_singleton metrics m ih =>
    rw [valuesOf_concat, lookup_setKey]
    by_cases hb : b = bucketOf bucketMs m.timeMs
    · rw [if_pos hb, Option.getD_some, lookup_setKey, ← hb]
      by_cases hlabel : label = labelOf m
      · have hold : ((((valuesOf labelOf bucketMs metrics).lookup b).getD []).lookup label).getD [] =
            samplesOf labelOf bucketMs metrics b label := by
          rw [ih]
          split
          · rename_i hnil
            exact hnil.symm
          · rfl
        rw [samplesOf_concat ⟨hb.symm, hlabel.symm⟩, if_pos hlabel, ← hlabel, hold,
          if_neg (List.append_ne_nil_of_right_ne_nil _ (List.cons_ne_nil _ _))]
      · rw [samplesOf_concat_other fun h => hlabel h.2.symm, if_neg hlabel, ih]
    · rw [samplesOf_concat_other fun h => hb h.1.symm, if_neg hb, ih]

theorem nodup_labels : ∀ byLabel ∈ valuesOf labelOf bucketMs metrics, (byLabel.2.map Prod.fst).Nodup := by
  induction metrics using List.reverseRecOn with
  | nil => exact List.forall_mem_nil _
  | append_singleton metrics m ih =>
    rw [valuesOf_concat]
    refine forall_setKey ih fun byLabel hlabels => nodup_setKey ?_
    cases byLabel with
    | none => exact List.nodup_nil
    | some entries => exact hlabels entries rfl

theorem nodup_lookup (b : ℚ) : ((((valuesOf labelOf bucketMs metrics).lookup b).getD []).map Prod.fst).Nodup := by
  cases hlookup : (valuesOf labelOf bucketMs metrics).lookup b with
  | none => exact List.nodup_nil
  | some byLabel =>
    obtain ⟨l₁, l₂, hsplit, -⟩ := List.lookup_eq_some_iff.1 hlookup
    exact nodup_labels (b, byLabel) (hsplit ▸ List.mem_append_right l₁ List.mem_cons_self)

theorem get?_set (row : SeriesPoint) (k key : String) (v : Cell) :
    (row.set k v).get? key = if key = k ∧ k ≠ "__proto__" then some v else row.get? key := by
  unfold SeriesPoint.set SeriesPoint.get?
  by_cases hms : k = "time_ms"
  · subst hms
    by_cases hkey : key = "time_ms" <;> simp [hkey]
  · by_cases htime : k = "time"
    · subst htime
      by_cases hkey : key = "time" <;> simp [hkey]
    · by_cases hproto : k = "__proto__"
      · simp [hproto]
      · rw [if_neg hms, if_neg htime, if_neg hproto]
        dsimp only
        rw [lookup_setKey]
        by_cases hkey : key = k
        · rw [hkey, if_neg hms, if_neg htime, if_pos rfl, if_pos ⟨rfl, hproto⟩]
        · have hno : ¬ (key = k ∧ k ≠ "__proto__") := fun h => hkey h.1
          rw [if_neg hkey, if_neg hno]

theorem get?_foldl_set {entries : List (String × List Double)} (h : (entries.map Prod.fst).Nodup) (row : SeriesPoint) :
    (entries.foldl (fun row e => row.set e.1 (.ofDouble (average e.2))) row).get? key =
      if key = "__proto__" then row.get? key
      else ((entries.lookup key).map fun list => Cell.ofDouble (average list)).or (row.get? key) := by
  induction entries generalizing row with
  | nil =>
    rw [List.foldl_nil, List.lookup_nil, Option.map_none, Option.none_or]
    split <;> rfl
  | cons e entries ih =>
    obtain ⟨k, list⟩ := e
    rw [List.map_cons, List.nodup_cons] at h
    rw [List.foldl_cons, ih h.2, get?_set, lookup_cons_ite]
    by_cases hproto : key = "__proto__"
    · rw [if_pos hproto, if_pos hproto, if_neg (fun h => h.2 (h.1.symm.trans hproto))]
    · rw [if_neg hproto, if_neg hproto]
      by_cases hkey : key = k
      · have hnone : entries.lookup key = none := by
          rw [List.lookup_eq_none_iff]
          intro p hp
          have hne : key ≠ p.1 := fun heq => h.1 (List.mem_map.2 ⟨p, hp, heq.symm.trans hkey⟩)
          simpa using hne
        rw [hnone, if_pos hkey, if_pos ⟨hkey, hkey ▸ hproto⟩]
        rfl
      · rw [if_neg hkey, if_neg (fun h => hkey h.1)]

variable (localeTime : ℚ → String)

/-- The row of a bucket. -/
def rowOf (labelOf : MetricPoint → String) (bucketMs : ℚ) (metrics : List MetricPoint) (b : ℚ) : SeriesPoint :=
  (((valuesOf labelOf bucketMs metrics).lookup b).getD []).foldl
    (fun row entry => row.set entry.1 (.ofDouble (average entry.2))) { time := .text (localeTime b), timeMs := .number b }

/-- What the samples of a label put into a row. -/
def entryOf (samples : List Double) : Option Cell :=
  if samples = [] then none else some (.ofDouble (average samples))

/-- The entry of a label's samples is over the time that the row has from the beginning, and no prototype. -/
theorem get?_rowOf (hproto : key ≠ "__proto__") :
    (rowOf localeTime labelOf bucketMs metrics b).get? key =
      (entryOf (samplesOf labelOf bucketMs metrics b key)).or
        (SeriesPoint.get? { time := .text (localeTime b), timeMs := .number b } key) := by
  unfold rowOf entryOf
  rw [get?_foldl_set (nodup_lookup b), if_neg hproto, lookup_valuesOf]
  split <;> rfl

theorem get?_rowOf_proto : (rowOf localeTime labelOf bucketMs metrics b).get? "__proto__" = none := by
  unfold rowOf
  rw [get?_foldl_set (nodup_lookup b), if_pos rfl]
  rfl

end

/-! ## The buckets of the rows -/

section

variable {labelOf : MetricPoint → String} {bucketMs : ℚ} {rangeMs : Option (ℚ × ℚ)} {metrics : List MetricPoint}
  {m : MetricPoint} {first k : ℤ} {n : Nat}

theorem spanned_iff {b : ℚ} : Spanned bucketMs metrics rangeMs b ↔
    Below (minBucket bucketMs rangeMs metrics) b ∧ Above (maxBucket bucketMs rangeMs metrics) b := by
  rw [below_minBucket, above_maxBucket]
  rfl

/-- The buckets of the rows are those that are spanned. -/
structure Grid (bucketMs : ℚ) (rangeMs : Option (ℚ × ℚ)) (metrics : List MetricPoint) (first : ℤ) (n : Nat) : Prop where
  times : gridOf bucketMs (minBucket bucketMs rangeMs metrics) (maxBucket bucketMs rangeMs metrics) =
    (List.range n).map fun i : Nat => ((first + i : ℤ) : ℚ) * bucketMs
  spanned : ∀ k : ℤ, Spanned bucketMs metrics rangeMs (k * bucketMs) ↔ first ≤ k ∧ k < first + n

theorem exists_grid (hpos : 0 < bucketMs) (rangeMs : Option (ℚ × ℚ)) (metrics : List MetricPoint) :
    ∃ first n, Grid bucketMs rangeMs metrics first n := by
  have hempty (h : ∀ b, ¬ Spanned bucketMs metrics rangeMs b)
      (hgrid : gridOf bucketMs (minBucket bucketMs rangeMs metrics) (maxBucket bucketMs rangeMs metrics) = []) :
      ∃ first n, Grid bucketMs rangeMs metrics first n :=
    ⟨0, 0, hgrid, fun k => iff_of_false (h _) (by omega)⟩
  cases hmin : minBucket bucketMs rangeMs metrics with
  | none =>
    refine hempty (fun b hb => ?_) (by rw [hmin]; rfl)
    rw [spanned_iff, hmin] at hb
    simp [Below] at hb
  | some b =>
    cases hmax : maxBucket bucketMs rangeMs metrics with
    | none =>
      refine hempty (fun b hb => ?_) (by rw [hmin, hmax]; rfl)
      rw [spanned_iff, hmax] at hb
      simp [Above] at hb
    | some b' =>
      obtain ⟨t, rfl⟩ := minBucket_eq_bucketOf hmin
      obtain ⟨t', rfl⟩ := maxBucket_eq_bucketOf hmax
      refine ⟨⌊t / bucketMs⌋, (⌊t' / bucketMs⌋ + 1 - ⌊t / bucketMs⌋).toNat, ?_, fun k => ?_⟩
      · rw [hmin, hmax]
        exact times_bucketTimes hpos _ _
      · rw [spanned_iff, hmin, hmax]
        simp only [Below, Above, Option.mem_some_iff, exists_eq_left', bucketOf, mul_le_mul_iff_left₀ hpos,
          Int.cast_le]
        omega

theorem Grid.mem (h : Grid bucketMs rangeMs metrics first n) (hm : m ∈ metrics) :
    first ≤ ⌊m.timeMs / bucketMs⌋ ∧ ⌊m.timeMs / bucketMs⌋ < first + n :=
  (h.spanned _).1 ⟨.inr ⟨m, hm, le_rfl⟩, .inr ⟨m, hm, le_rfl⟩⟩

theorem rows_of_grid (h : Grid bucketMs rangeMs metrics first n) (row : ℚ → SeriesPoint) :
    rowsOf bucketMs rangeMs metrics row = (List.range n).map fun i : Nat => row (((first + i : ℤ) : ℚ) * bucketMs) := by
  have hrows : rowsOf bucketMs rangeMs metrics row =
      (gridOf bucketMs (minBucket bucketMs rangeMs metrics) (maxBucket bucketMs rangeMs metrics)).map row := by
    unfold rowsOf gridOf
    split <;> rfl
  rw [hrows, h.times, List.map_map]
  rfl

variable {localeTime : ℚ → String}

theorem getElem?_rows {i : Nat} {row : ℚ → SeriesPoint} {r : SeriesPoint} :
    ((List.range n).map fun i : Nat => row (((first + i : ℤ) : ℚ) * bucketMs))[i]? = some r ↔
      i < n ∧ r = row (((first + i : ℤ) : ℚ) * bucketMs) := by
  rw [List.getElem?_eq_some_iff]
  simp [eq_comm]

theorem samplesOf_ne_nil (hm : m ∈ metrics) :
    samplesOf labelOf bucketMs metrics (bucketOf bucketMs m.timeMs) (labelOf m) ≠ [] :=
  samplesOf_ne_nil_iff.2 ⟨m, hm, rfl, rfl⟩

theorem meanOf_ne_none_iff {samples : List Double} : meanOf samples ≠ none ↔ samples ≠ [] := by
  unfold meanOf
  split <;> simp [*]

theorem entryOf_eq_meanOf {samples : List Double} (hne : samples ≠ []) :
    entryOf samples = meanOf samples ↔ Steady samples := by
  rw [entryOf, meanOf, if_neg hne, if_neg hne, Option.some_inj, average_iff hne]

theorem steady_of_mem (h : AllSteady labelOf bucketMs metrics) {b : ℚ} {label : String}
    (hne : samplesOf labelOf bucketMs metrics b label ≠ []) :
    entryOf (samplesOf labelOf bucketMs metrics b label) = meanOf (samplesOf labelOf bucketMs metrics b label) := by
  obtain ⟨m, hm, rfl, rfl⟩ := samplesOf_ne_nil_iff.1 hne
  exact (entryOf_eq_meanOf hne).2 (h m hm)

/-- The time of a row is the entry of what is labelled as one, or that of its bucket. -/
theorem timeMs_rowOf {b : ℚ} : (rowOf localeTime labelOf bucketMs metrics b).timeMs =
    (entryOf (samplesOf labelOf bucketMs metrics b "time_ms")).getD (.number b) := by
  have hget : (rowOf localeTime labelOf bucketMs metrics b).get? "time_ms" = _ := get?_rowOf localeTime (by decide)
  cases hentry : entryOf (samplesOf labelOf bucketMs metrics b "time_ms") with
  | none =>
    rw [hentry] at hget
    exact Option.some.inj hget
  | some cell =>
    rw [hentry] at hget
    exact Option.some.inj hget

/-- Rows of labels that do not clash, and of steady means. -/
theorem bucketed_of_unclashing (hpos : 0 < bucketMs) (hgrid : Grid bucketMs rangeMs metrics first n)
    (h : Unclashing labelOf bucketMs metrics rangeMs) (hsteady : AllSteady labelOf bucketMs metrics) :
    Bucketed labelOf bucketMs metrics first
      (rowsOf bucketMs rangeMs metrics (rowOf localeTime labelOf bucketMs metrics)) := by
  rw [rows_of_grid hgrid]
  have hspanned {i : Nat} (hi : i < n) : Spanned bucketMs metrics rangeMs (((first + i : ℤ) : ℚ) * bucketMs) :=
    (hgrid.spanned _).2 (by omega)
  refine ⟨fun i row hrow => ?_, fun m hm => ?_, fun i row hrow m hm => ?_⟩
  · obtain ⟨hi, rfl⟩ := getElem?_rows.1 hrow
    rw [timeMs_rowOf]
    by_cases hnil : samplesOf labelOf bucketMs metrics (((first + i : ℤ) : ℚ) * bucketMs) "time_ms" = []
    · rw [hnil]
      rfl
    · obtain ⟨m, hm, -, hlabel⟩ := samplesOf_ne_nil_iff.1 hnil
      rw [steady_of_mem hsteady hnil, h.time_ms m hm hlabel _ (hspanned hi), Option.getD_some]
  · obtain ⟨hle, hlt⟩ := hgrid.mem hm
    rw [List.length_map, List.length_range]
    refine ⟨(⌊m.timeMs / bucketMs⌋ - first).toNat, ⟨by omega, ?_⟩, fun i hi => ?_⟩
    · rw [bucketOf]
      congr 2
      omega
    · have heq := Int.cast_inj.1 (mul_right_cancel₀ hpos.ne' hi.2)
      omega
  · obtain ⟨hi, rfl⟩ := getElem?_rows.1 hrow
    rw [get?_rowOf localeTime (h.proto m hm)]
    by_cases hnil : samplesOf labelOf bucketMs metrics (((first + i : ℤ) : ℚ) * bucketMs) (labelOf m) = []
    · have hms : labelOf m ≠ "time_ms" := fun hlabel => by
        have hmean := h.time_ms m hm hlabel _ (hspanned hi)
        rw [← hlabel, hnil] at hmean
        cases hmean
      have htime : labelOf m ≠ "time" := fun hlabel => h.time m hm hlabel _ (hspanned hi) (by rw [← hlabel, hnil])
      rw [hnil, SeriesPoint.get?, if_neg hms, if_neg htime]
      rfl
    · obtain ⟨cell, hcell⟩ := Option.ne_none_iff_exists'.1 (meanOf_ne_none_iff.2 hnil)
      rw [steady_of_mem hsteady hnil, hcell]
      rfl

/-- A key that every row has: there are samples of it in the bucket of each row. -/
theorem samples_of_bucketed (hgrid : Grid bucketMs rangeMs metrics first n) {first' : ℤ}
    (h : Bucketed labelOf bucketMs metrics first'
      (rowsOf bucketMs rangeMs metrics (rowOf localeTime labelOf bucketMs metrics)))
    (hm : m ∈ metrics) (hkey : ∀ row : SeriesPoint, row.get? (labelOf m) ≠ none) {i : Nat} (hi : i < n) :
    samplesOf labelOf bucketMs metrics (((first' + i : ℤ) : ℚ) * bucketMs) (labelOf m) ≠ [] := by
  rw [rows_of_grid hgrid] at h
  rw [← meanOf_ne_none_iff, ← h.entry i _ (getElem?_rows.2 ⟨hi, rfl⟩) m hm]
  exact hkey _

/-- A row has the times from the beginning. -/
theorem get?_time_ne_none (row : SeriesPoint) : row.get? "time" ≠ none ∧ row.get? "time_ms" ≠ none := by
  simp [SeriesPoint.get?]

/-- The rows are counted from the first one: one of them has the time of its bucket, or all have samples under it. -/
theorem first_of_bucketed (hpos : 0 < bucketMs) (hgrid : Grid bucketMs rangeMs metrics first n) {first' : ℤ}
    (h : Bucketed labelOf bucketMs metrics first'
      (rowsOf bucketMs rangeMs metrics (rowOf localeTime labelOf bucketMs metrics)))
    (hm : m ∈ metrics) : first' = first := by
  have hn : 0 < n := by
    have hmem := hgrid.mem hm
    omega
  by_cases hplain : ∃ i < n, samplesOf labelOf bucketMs metrics (((first + i : ℤ) : ℚ) * bucketMs) "time_ms" = []
  · obtain ⟨i, hi, hnil⟩ := hplain
    rw [rows_of_grid hgrid] at h
    have htime := h.time i _ (getElem?_rows.2 ⟨hi, rfl⟩)
    rw [timeMs_rowOf, hnil] at htime
    have heq := Int.cast_inj.1 (mul_right_cancel₀ hpos.ne' (Cell.number.inj htime))
    omega
  · push Not at hplain
    obtain ⟨m', hm', -, hlabel⟩ := samplesOf_ne_nil_iff.1 (hplain 0 hn)
    have hkey (row : SeriesPoint) : row.get? (labelOf m') ≠ none := by
      rw [hlabel]
      exact (get?_time_ne_none row).2
    have hbounds {i : Nat} (hi : i < n) : first ≤ first' + i ∧ first' + i < first + n := by
      obtain ⟨x, hx, hbucket, -⟩ := samplesOf_ne_nil_iff.1 (samples_of_bucketed hgrid h hm' hkey hi)
      have heq := Int.cast_inj.1 (mul_right_cancel₀ hpos.ne' hbucket)
      have hmem := hgrid.mem hx
      omega
    have hlow := hbounds hn
    have hhigh := hbounds (Nat.sub_lt hn Nat.one_pos)
    omega

theorem unclashing_of_bucketed (hpos : 0 < bucketMs) (hgrid : Grid bucketMs rangeMs metrics first n) {first' : ℤ}
    (h : Bucketed labelOf bucketMs metrics first'
      (rowsOf bucketMs rangeMs metrics (rowOf localeTime labelOf bucketMs metrics))) :
    Unclashing labelOf bucketMs metrics rangeMs ∧ AllSteady labelOf bucketMs metrics := by
  have hspanned {k : ℤ} (hk : Spanned bucketMs metrics rangeMs (k * bucketMs)) : ∃ i < n, k = first + (i : ℤ) := by
    have hk := (hgrid.spanned k).1 hk
    exact ⟨(k - first).toNat, by omega, by omega⟩
  -- the entry of a label in the bucket of one of its samples
  have hown : ∀ m ∈ metrics, (rowOf localeTime labelOf bucketMs metrics (bucketOf bucketMs m.timeMs)).get? (labelOf m) =
      meanOf (samplesOf labelOf bucketMs metrics (bucketOf bucketMs m.timeMs) (labelOf m)) := by
    intro m hm
    obtain rfl := first_of_bucketed hpos hgrid h hm
    rw [rows_of_grid hgrid] at h
    obtain ⟨i, ⟨hi, hbucket⟩, -⟩ := h.one_row m hm
    rw [List.length_map, List.length_range] at hi
    rw [hbucket]
    exact h.entry i _ (getElem?_rows.2 ⟨hi, rfl⟩) m hm
  have hproto : ∀ m ∈ metrics, labelOf m ≠ "__proto__" := fun m hm hlabel => by
    have hentry := hown m hm
    rw [hlabel, get?_rowOf_proto, ← hlabel] at hentry
    exact meanOf_ne_none_iff.2 (samplesOf_ne_nil hm) hentry.symm
  refine ⟨⟨hproto, fun m hm hlabel k hk => ?_, fun m hm hlabel k hk => ?_⟩, fun m hm => ?_⟩
  · have hkey (row : SeriesPoint) : row.get? (labelOf m) ≠ none := by
      rw [hlabel]
      exact (get?_time_ne_none row).1
    obtain rfl := first_of_bucketed hpos hgrid h hm
    obtain ⟨i, hi, rfl⟩ := hspanned hk
    rw [← hlabel]
    exact samples_of_bucketed hgrid h hm hkey hi
  · obtain rfl := first_of_bucketed hpos hgrid h hm
    obtain ⟨i, hi, rfl⟩ := hspanned hk
    rw [rows_of_grid hgrid] at h
    have hentry := h.entry i _ (getElem?_rows.2 ⟨hi, rfl⟩) m hm
    rw [hlabel] at hentry
    rw [← hentry]
    exact congrArg some (h.time i _ (getElem?_rows.2 ⟨hi, rfl⟩))
  · have hne : samplesOf labelOf bucketMs metrics (bucketOf bucketMs m.timeMs) (labelOf m) ≠ [] :=
      samplesOf_ne_nil hm
    have hentry := hown m hm
    rw [get?_rowOf localeTime (hproto m hm)] at hentry
    rw [← entryOf_eq_meanOf hne, ← hentry, entryOf, if_neg hne, Option.some_or]

end

/-! ## Which labels -/

section

variable (localeTime : ℚ → String) (metrics : List MetricPoint) {bucketMs : ℚ}

theorem buildBucketedRows_eq (labelOf : MetricPoint → String) (hpos : 0 < bucketMs) (rangeMs : Option (ℚ × ℚ)) :
    buildBucketedRows localeTime metrics labelOf bucketMs rangeMs =
      rowsOf bucketMs rangeMs metrics (rowOf localeTime labelOf bucketMs metrics) := if_neg (not_le.2 hpos)

/-- **The rows are bucketed** exactly where no label is a key of the row's own, except in every row and, as the time in
milliseconds, with the bucket's time for its mean, and the means are steady. -/
theorem bucketed_iff (labelOf : MetricPoint → String) (hpos : 0 < bucketMs) (rangeMs : Option (ℚ × ℚ)) :
    (∃ first, Bucketed labelOf bucketMs metrics first (buildBucketedRows localeTime metrics labelOf bucketMs rangeMs)) ↔
      Unclashing labelOf bucketMs metrics rangeMs ∧ AllSteady labelOf bucketMs metrics := by
  obtain ⟨first, n, hgrid⟩ := exists_grid hpos rangeMs metrics
  rw [buildBucketedRows_eq localeTime metrics labelOf hpos]
  constructor
  · rintro ⟨first', h⟩
    exact unclashing_of_bucketed hpos hgrid h
  · exact fun h => ⟨first, bucketed_of_unclashing hpos hgrid h.1 h.2⟩

/-- The labels of the charts of all metrics are none of a row's own keys. -/
theorem unclashing_seriesLabel (options : SeriesOptions) (bucketMs : ℚ) (rangeMs : Option (ℚ × ℚ)) :
    Unclashing (fun m => seriesLabel m options.includeCheckType) bucketMs metrics rangeMs := by
  have hne (m : MetricPoint) {key : String} (hkey : '|' ∉ key.toList) :
      seriesLabel m options.includeCheckType ≠ key := seriesLabel_ne m _ hkey
  exact ⟨fun m _ => hne m (by decide), fun m _ h => absurd h (hne m (by decide)),
    fun m _ h => absurd h (hne m (by decide))⟩

end

section

variable {labelOf : MetricPoint → String} {bucketMs M : ℚ} {metrics : List MetricPoint}

theorem moderate_samples (hM : 1 ≤ M) (hsize : M ≤ 2 ^ 200) (hcount : metrics.length ≤ 2 ^ 50)
    (hvalues : ∀ m ∈ metrics, m.value.isFinite = true ∧ |m.value.value| ≤ M) (b : ℚ) (label : String) :
    Moderate M (samplesOf labelOf bucketMs metrics b label) := by
  refine ⟨fun v hv => ?_, hM, hsize, ?_⟩
  · obtain ⟨m, hm, rfl⟩ := List.mem_map.1 hv
    exact hvalues m (List.mem_of_mem_filter hm)
  · rw [samplesOf, List.length_map]
    exact (List.length_filter_le _ _).trans hcount

/-- **The charts of all metrics** are bucketed when no mean comes too close to a half of a thousandth. -/
theorem bucketed_buildChartData (localeTime : ℚ → String) (options : SeriesOptions) (hpos : 0 < options.bucketMs)
    (hM : 1 ≤ M) (hsize : M ≤ 2 ^ 200) (hcount : metrics.length ≤ 2 ^ 50)
    (hvalues : ∀ m ∈ metrics, m.value.isFinite = true ∧ |m.value.value| ≤ M)
    (hmargin : ∀ m ∈ metrics, m.success = true → ∀ k : ℤ,
      let samples := samplesOf (fun m => seriesLabel m options.includeCheckType) options.bucketMs
        (metrics.filter (·.success)) (bucketOf options.bucketMs m.timeMs) (seriesLabel m options.includeCheckType)
      drift M samples < |mean samples * 1000 + 1 / 2 - k|) :
    ∃ first, Bucketed (fun m => seriesLabel m options.includeCheckType) options.bucketMs (metrics.filter (·.success))
      first (buildChartData localeTime metrics options) := by
  rw [buildChartData, bucketed_iff localeTime _ _ hpos]
  refine ⟨unclashing_seriesLabel _ options _ _, fun m hm => ?_⟩
  have hcount : (metrics.filter (·.success)).length ≤ 2 ^ 50 := (List.length_filter_le _ _).trans hcount
  have hvalues : ∀ m ∈ metrics.filter (·.success), m.value.isFinite = true ∧ |m.value.value| ≤ M :=
    fun m hm => hvalues m (List.mem_of_mem_filter hm)
  obtain ⟨hmem, hsuccess⟩ := List.mem_filter.1 hm
  exact steady_of_margin (samplesOf_ne_nil hm) (moderate_samples hM hsize hcount hvalues _ _)
    (hmargin m hmem hsuccess)

end

/-- The offset of an agent whose id is the key of a time. -/
def clashing : MetricPoint where
  timeMs := 5000
  agentId := "time_ms"
  checkType := "ntp_offset"
  target := "pool.ntp.org"
  success := true
  value := .ofRat (1 / 4)

theorem bucketed_iff_clashing :
    (∃ first, Bucketed (·.agentId) 1000 [clashing] first
        (buildBucketedRows toString [clashing] (·.agentId) 1000 none)) ↔
      Unclashing (·.agentId) 1000 [clashing] none ∧ AllSteady (·.agentId) 1000 [clashing] :=
  bucketed_iff toString [clashing] (·.agentId) (by norm_num) none

/-- **The offset is the time of the row.** -/
theorem offset_as_time : (buildNtpSeries toString [clashing] {}).map SeriesPoint.timeMs = [.number (1 / 4)] ∧
    ¬ ∃ first, Bucketed (·.agentId) 1000 [clashing] first (buildNtpSeries toString [clashing] {}) := by
  have hrows : (buildNtpSeries toString [clashing] {}).map SeriesPoint.timeMs = [.number (1 / 4)] := by decide +kernel
  refine ⟨hrows, ?_⟩
  rintro ⟨first, h⟩
  obtain ⟨row, hrow, htime⟩ := List.map_eq_singleton_iff.1 hrows
  rw [hrow] at h
  have hfirst := h.time 0 row rfl
  rw [htime] at hfirst
  have hfirst := Cell.number.inj hfirst
  push_cast at hfirst
  have hmul : (first : ℚ) * 4000 = 1 := by linarith
  have hint : first * 4000 = 1 := by exact_mod_cast hmul
  omega

end PudimNetMon.Dashboard
