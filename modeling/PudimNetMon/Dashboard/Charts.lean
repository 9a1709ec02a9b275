import PudimNetMon.Dashboard.Average

/-!
# Rows of the charts (`derive.ts`)

The chart of the values and the strip of outcomes under it put metrics into buckets of equal width, each from the first
to the last bucket that it knows of. Times are rational numbers of milliseconds, and their arithmetic is exact; values
are doubles.

- `times_bucketTimes`: the rows that the loop over the buckets visits;
- `aligned_iff`: the metrics with which both have the same rows.
-/

namespace PudimNetMon.Dashboard

structure MetricPoint where
  timeMs : ℚ
  agentId : String
  checkType : String
  target : String
  success : Bool
  value : Double
  deriving DecidableEq

/-- A row: its time, and what else is set in it. -/
structure SeriesPoint where
  time : Cell
  timeMs : Cell
  series : List (String × Cell) := []
  deriving DecidableEq

structure SeriesOptions where
  bucketMs : ℚ := 1000
  includeCheckType : Bool := false
  /-- `from` and `to` -/
  rangeMs : Option (ℚ × ℚ) := none

/-- A `Map` after `map.set(key, f(map.get(key)))`. -/
def setKey {κ υ : Type} [DecidableEq κ] (key : κ) (f : Option υ → υ) : List (κ × υ) → List (κ × υ)
  | [] => [(key, f none)]
  | (k, v) :: entries => if k = key then (k, f (some v)) :: entries else (k, v) :: setKey key f entries

/-- `row[key] = v`; a number that is set as the prototype is ignored. -/
def SeriesPoint.set (row : SeriesPoint) (key : String) (v : Cell) : SeriesPoint :=
  if key = "time_ms" then { row with timeMs := v }
  else if key = "time" then { row with time := v }
  else if key = "__proto__" then row
  else { row with series := setKey key (fun _ => v) row.series }

def seriesLabel (m : MetricPoint) (includeCheckType : Bool) : String :=
  if includeCheckType then m.checkType ++ " | " ++ m.agentId ++ " | " ++ m.target
  else m.agentId ++ " | " ++ m.target

section

variable {α : Type} [LinearOrder α]

/-- `minBucket` after one metric; none is infinity. -/
def lower (minBucket : Option α) (bucket : α) : Option α :=
  match minBucket with
  | none => some bucket
  | some b => some (if bucket < b then bucket else b)

/-- `maxBucket` after one metric. -/
def raise (maxBucket : Option α) (bucket : α) : Option α :=
  match maxBucket with
  | none => some bucket
  | some b => some (if bucket > b then bucket else b)

end

section

variable (bucketMs : ℚ) (rangeMs : Option (ℚ × ℚ)) (metrics : List MetricPoint)

/-- The start of the bucket of a time. -/
def bucketOf (t : ℚ) : ℚ := ⌊t / bucketMs⌋ * bucketMs

def minBucket : Option ℚ :=
  metrics.foldl (fun b m => lower b (bucketOf bucketMs m.timeMs)) (rangeMs.map fun r => bucketOf bucketMs r.1)

def maxBucket : Option ℚ :=
  metrics.foldl (fun b m => raise b (bucketOf bucketMs m.timeMs)) (rangeMs.map fun r => bucketOf bucketMs r.2)

/-- The loop `for (let b = minBucket; b <= maxBucket; b += bucketMs)`, with fuel. -/
def bucketsFrom (last : ℚ) : Nat → ℚ → List ℚ
  | 0, _ => []
  | n + 1, b => if b ≤ last then b :: bucketsFrom last n (b + bucketMs) else []

/-- The buckets that the loop visits. -/
def bucketTimes (first last : ℚ) : List ℚ := bucketsFrom bucketMs last (⌊(last - first) / bucketMs⌋.toNat + 1) first

/-- The rows of a loop over the buckets. -/
def rowsOf (row : ℚ → SeriesPoint) : List SeriesPoint :=
  match minBucket bucketMs rangeMs metrics, maxBucket bucketMs rangeMs metrics with
  | some first, some last => (bucketTimes bucketMs first last).map row
  | _, _ => []

end

section

variable (localeTime : ℚ → String)

/-- The values of a bucket, by label. -/
def valuesOf (labelOf : MetricPoint → String) (bucketMs : ℚ) (metrics : List MetricPoint) :
    List (ℚ × List (String × List Double)) :=
  metrics.foldl (fun values m =>
    setKey (bucketOf bucketMs m.timeMs)
      (fun byLabel => setKey (labelOf m) (fun list => list.getD [] ++ [m.value]) (byLabel.getD [])) values) []

def buildBucketedRows (metrics : List MetricPoint) (labelOf : MetricPoint → String) (bucketMs : ℚ)
    (rangeMs : Option (ℚ × ℚ)) : List SeriesPoint :=
  if bucketMs ≤ 0 then []
  else
    let values := valuesOf labelOf bucketMs metrics
    rowsOf bucketMs rangeMs metrics fun b =>
      ((values.lookup b).getD []).foldl (fun row entry => row.set entry.1 (.ofDouble (average entry.2)))
        { time := .text (localeTime b), timeMs := .number b }

def buildChartData (metrics : List MetricPoint) (options : SeriesOptions) : List SeriesPoint :=
  buildBucketedRows localeTime (metrics.filter (·.success)) (fun m => seriesLabel m options.includeCheckType)
    options.bucketMs options.rangeMs

/-- The outcomes of a bucket: successes and failures. -/
def totalsOf (bucketMs : ℚ) (metrics : List MetricPoint) : List (ℚ × Nat × Nat) :=
  metrics.foldl (fun totals m =>
    setKey (bucketOf bucketMs m.timeMs)
      (fun acc =>
        let (ok, fail) := acc.getD (0, 0)
        if m.success then (ok + 1, fail) else (ok, fail + 1)) totals) []

def buildOutcomeRows (metrics : List MetricPoint) (options : SeriesOptions) : List SeriesPoint :=
  if options.bucketMs ≤ 0 then []
  else
    let totals := totalsOf options.bucketMs metrics
    rowsOf options.bucketMs options.rangeMs metrics fun b =>
      let (ok, fail) := (totals.lookup b).getD (0, 0)
      { time := .text (localeTime b), timeMs := .number b, series := [("__ok", .number ok), ("__fail", .number fail)] }

end

/-! ## The loop over the buckets -/

variable {bucketMs : ℚ}

theorem bucketsFrom_eq (hpos : 0 < bucketMs) (i j : ℤ) {n : Nat} (hn : (j + 1 - i).toNat ≤ n) :
    bucketsFrom bucketMs (j * bucketMs) n (i * bucketMs) =
      (List.range (j + 1 - i).toNat).map fun k : Nat => ((i + k : ℤ) : ℚ) * bucketMs := by
  induction n generalizing i with
  | zero =>
    rw [Nat.le_zero.1 hn]
    rfl
  | succ n ih =>
    have hle : (i : ℚ) * bucketMs ≤ j * bucketMs ↔ i ≤ j := by
      rw [mul_le_mul_iff_left₀ hpos, Int.cast_le]
    unfold bucketsFrom
    by_cases hij : i ≤ j
    · have hnext : (i : ℚ) * bucketMs + bucketMs = ((i + 1 : ℤ) : ℚ) * bucketMs := by
        push_cast
        ring
      obtain ⟨k, hk⟩ : ∃ k, (j + 1 - i).toNat = k + 1 := ⟨(j - i).toNat, by omega⟩
      have hk' : (j + 1 - (i + 1)).toNat = k := by omega
      rw [if_pos (hle.2 hij), hnext, ih (i + 1) (by omega), hk, hk', List.range_succ_eq_map, List.map_cons,
        List.map_map]
      congr 1
      · simp
      · refine List.map_congr_left fun m _ => ?_
        simp only [Function.comp_apply]
        congr 2
        omega
    · have hzero : (j + 1 - i).toNat = 0 := by omega
      rw [if_neg (fun h => hij (hle.1 h)), hzero]
      rfl

/-- **The rows of the loop**: all buckets from the first to the last one. -/
theorem times_bucketTimes (hpos : 0 < bucketMs) (i j : ℤ) : bucketTimes bucketMs (i * bucketMs) (j * bucketMs) =
    (List.range (j + 1 - i).toNat).map fun k : Nat => ((i + k : ℤ) : ℚ) * bucketMs := by
  have hcount : ((j : ℚ) * bucketMs - i * bucketMs) / bucketMs = ((j - i : ℤ) : ℚ) := by
    rw [← sub_mul, mul_div_assoc, div_self hpos.ne', mul_one, Int.cast_sub]
  unfold bucketTimes
  rw [hcount, Int.floor_intCast]
  exact bucketsFrom_eq hpos i j (by omega)

theorem bucketTimes_ne_nil (hpos : 0 < bucketMs) {i j : ℤ} (hij : i ≤ j) :
    bucketTimes bucketMs (i * bucketMs) (j * bucketMs) ≠ [] := by
  rw [times_bucketTimes hpos, ne_eq, List.map_eq_nil_iff, List.range_eq_nil]
  omega

/-- Two loops that visit a bucket visit the same ones if they begin and end alike. -/
theorem bucketTimes_inj (hpos : 0 < bucketMs) {i j i' j' : ℤ} (hij : i ≤ j)
    (h : bucketTimes bucketMs (i * bucketMs) (j * bucketMs) = bucketTimes bucketMs (i' * bucketMs) (j' * bucketMs)) :
    i = i' ∧ j = j' := by
  rw [times_bucketTimes hpos, times_bucketTimes hpos] at h
  have hlength := congrArg List.length h
  simp only [List.length_map, List.length_range] at hlength
  have hhead := congrArg List.head? h
  obtain ⟨k, hk⟩ : ∃ k, (j + 1 - i).toNat = k + 1 := ⟨(j - i).toNat, by omega⟩
  rw [← hlength, hk, List.range_succ_eq_map, List.map_cons, List.map_cons, List.head?_cons, List.head?_cons] at hhead
  have hfirst := mul_right_cancel₀ hpos.ne' (Option.some.inj hhead)
  have hi : i = i' := by simpa using Int.cast_inj.1 hfirst
  exact ⟨hi, by omega⟩

/-! ## The first and the last bucket -/

section

variable {α : Type} [LinearOrder α] {m m' : Option α}

/-- What was found lies at a bound or in front of it. -/
def Below (m : Option α) (t : α) : Prop := ∃ b ∈ m, b ≤ t

theorem below_lower {b t : α} : Below (lower m b) t ↔ Below m t ∨ b ≤ t := by
  cases m with
  | none => simp [Below, lower]
  | some a =>
    simp only [Below, lower, Option.mem_some_iff, exists_eq_left']
    split
    · rename_i hlt
      exact ⟨.inr, fun h => h.elim (fun h => (hlt.trans_le h).le) id⟩
    · rename_i hle
      exact ⟨.inl, fun h => h.elim id fun h => (not_lt.1 hle).trans h⟩

theorem below_foldl {l : List α} {t : α} : Below (l.foldl lower m) t ↔ Below m t ∨ ∃ b ∈ l, b ≤ t := by
  induction l generalizing m with
  | nil => simp
  | cons b l ih => rw [List.foldl_cons, ih, below_lower, or_assoc, List.exists_mem_cons_iff]

/-- What lies below decides what was found. -/
theorem eq_of_below (h : ∀ t, Below m t ↔ Below m' t) : m = m' := by
  have hof {m m' : Option α} {a : α} (hm : m = some a) (h : ∀ t, Below m t → Below m' t) : ∃ b ∈ m', b ≤ a :=
    h a ⟨a, hm, le_rfl⟩
  cases hm : m with
  | none =>
    cases hm' : m' with
    | none => rfl
    | some b =>
      obtain ⟨a, ha, -⟩ := hof hm' fun t => (h t).2
      rw [hm] at ha
      cases ha
  | some a =>
    obtain ⟨b, hb, hba⟩ := hof hm fun t => (h t).1
    obtain ⟨a', ha, hab⟩ := hof hb fun t => (h t).2
    cases hm.symm.trans ha
    rw [hb, le_antisymm hab hba]

/-- What was found lies at a bound or behind it. -/
def Above (m : Option α) (t : α) : Prop := ∃ b ∈ m, t ≤ b

/-- `raise` is `lower` in the dual order. -/
theorem above_foldl {l : List α} {t : α} : Above (l.foldl raise m) t ↔ Above m t ∨ ∃ b ∈ l, t ≤ b :=
  below_foldl (α := αᵒᵈ)

theorem eq_of_above (h : ∀ t, Above m t ↔ Above m' t) : m = m' := eq_of_below (α := αᵒᵈ) h

end

variable {rangeMs : Option (ℚ × ℚ)} {metrics : List MetricPoint} {t : ℚ}

theorem below_minBucket : Below (minBucket bucketMs rangeMs metrics) t ↔
    (∃ r ∈ rangeMs, bucketOf bucketMs r.1 ≤ t) ∨ ∃ m ∈ metrics, bucketOf bucketMs m.timeMs ≤ t := by
  have hfold : minBucket bucketMs rangeMs metrics = (metrics.map fun m => bucketOf bucketMs m.timeMs).foldl lower
      (rangeMs.map fun r => bucketOf bucketMs r.1) := by
    rw [List.foldl_map]
    rfl
  rw [hfold, below_foldl]
  simp [Below]

theorem above_maxBucket : Above (maxBucket bucketMs rangeMs metrics) t ↔
    (∃ r ∈ rangeMs, t ≤ bucketOf bucketMs r.2) ∨ ∃ m ∈ metrics, t ≤ bucketOf bucketMs m.timeMs := by
  have hfold : maxBucket bucketMs rangeMs metrics = (metrics.map fun m => bucketOf bucketMs m.timeMs).foldl raise
      (rangeMs.map fun r => bucketOf bucketMs r.2) := by
    rw [List.foldl_map]
    rfl
  rw [hfold, above_foldl]
  simp [Above]

/-- The first bucket is one of those that were compared. -/
theorem minBucket_eq_bucketOf {b : ℚ} (h : b ∈ minBucket bucketMs rangeMs metrics) : ∃ t, b = bucketOf bucketMs t := by
  have hone {u : ℚ} (hle : bucketOf bucketMs u ≤ b)
      (hfound : Below (minBucket bucketMs rangeMs metrics) (bucketOf bucketMs u)) : ∃ t, b = bucketOf bucketMs t := by
    obtain ⟨b', hb', hle'⟩ := hfound
    cases Option.mem_unique h hb'
    exact ⟨u, le_antisymm hle' hle⟩
  rcases below_minBucket.1 ⟨b, h, le_rfl⟩ with ⟨r, hr, hle⟩ | ⟨m, hm, hle⟩
  · exact hone hle (below_minBucket.2 (.inl ⟨r, hr, le_rfl⟩))
  · exact hone hle (below_minBucket.2 (.inr ⟨m, hm, le_rfl⟩))

theorem maxBucket_eq_bucketOf {b : ℚ} (h : b ∈ maxBucket bucketMs rangeMs metrics) : ∃ t, b = bucketOf bucketMs t := by
  have hone {u : ℚ} (hle : b ≤ bucketOf bucketMs u)
      (hfound : Above (maxBucket bucketMs rangeMs metrics) (bucketOf bucketMs u)) : ∃ t, b = bucketOf bucketMs t := by
    obtain ⟨b', hb', hle'⟩ := hfound
    cases Option.mem_unique h hb'
    exact ⟨u, le_antisymm hle hle'⟩
  rcases above_maxBucket.1 ⟨b, h, le_rfl⟩ with ⟨r, hr, hle⟩ | ⟨m, hm, hle⟩
  · exact hone hle (above_maxBucket.2 (.inl ⟨r, hr, le_rfl⟩))
  · exact hone hle (above_maxBucket.2 (.inr ⟨m, hm, le_rfl⟩))

/-! ## The times of the rows -/

/-- The buckets between two bounds, if both were found. -/
def gridOf (bucketMs : ℚ) : Option ℚ → Option ℚ → List ℚ
  | some first, some last => bucketTimes bucketMs first last
  | _, _ => []

theorem timeMs_rowsOf {row : ℚ → SeriesPoint} (h : ∀ b, (row b).timeMs = .number b) :
    (rowsOf bucketMs rangeMs metrics row).map SeriesPoint.timeMs =
      (gridOf bucketMs (minBucket bucketMs rangeMs metrics) (maxBucket bucketMs rangeMs metrics)).map Cell.number := by
  unfold rowsOf gridOf
  split
  · rw [List.map_map]
    exact List.map_congr_left fun b _ => h b
  · rfl

section

variable {κ υ : Type} [DecidableEq κ]

theorem forall_setKey {p : κ × υ → Prop} {key : κ} {f : Option υ → υ} {entries : List (κ × υ)}
    (h : ∀ e ∈ entries, p e) (hf : ∀ o : Option υ, (∀ v ∈ o, p (key, v)) → p (key, f o)) :
    ∀ e ∈ setKey key f entries, p e := by
  induction entries with
  | nil => simpa [setKey] using hf none nofun
  | cons e entries ih =>
    obtain ⟨k, v⟩ := e
    rw [List.forall_mem_cons] at h
    unfold setKey
    split
    · rename_i hk
      subst hk
      refine List.forall_mem_cons.2 ⟨hf (some v) ?_, h.2⟩
      rintro _ ⟨⟩
      exact h.1
    · exact List.forall_mem_cons.2 ⟨h.1, ih h.2⟩

end

/-- The keys of a row's values are labels. -/
theorem label_of_mem_values {labelOf : MetricPoint → String} :
    ∀ byLabel ∈ valuesOf labelOf bucketMs metrics, ∀ e ∈ byLabel.2, ∃ m, e.1 = labelOf m := by
  have hfold : ∀ (values : List (ℚ × List (String × List Double))),
      (∀ byLabel ∈ values, ∀ e ∈ byLabel.2, ∃ m, e.1 = labelOf m) →
      ∀ byLabel ∈ metrics.foldl (fun values m => setKey (bucketOf bucketMs m.timeMs)
        (fun byLabel => setKey (labelOf m) (fun list => list.getD [] ++ [m.value]) (byLabel.getD [])) values) values,
        ∀ e ∈ byLabel.2, ∃ m, e.1 = labelOf m := by
    induction metrics with
    | nil => exact fun _ h => h
    | cons m metrics ih =>
      refine fun values h => ih _ (forall_setKey h fun byLabel hlabels => ?_)
      refine forall_setKey ?_ fun _ _ => ⟨m, rfl⟩
      cases byLabel with
      | none => exact nofun
      | some entries => exact hlabels entries rfl
  exact hfold [] nofun

/-- A label is no key without a bar, such as that of the time. -/
theorem seriesLabel_ne (m : MetricPoint) (includeCheckType : Bool) {key : String} (hkey : '|' ∉ key.toList) :
    seriesLabel m includeCheckType ≠ key := by
  have hbar : '|' ∈ (seriesLabel m includeCheckType).toList := by
    unfold seriesLabel
    split <;> simp
  intro h
  rw [h] at hbar
  exact hkey hbar

theorem timeMs_set {row : SeriesPoint} {key : String} (h : key ≠ "time_ms") (v : Cell) :
    (row.set key v).timeMs = row.timeMs := by
  rw [SeriesPoint.set, if_neg h]
  split
  · rfl
  · split <;> rfl

theorem timeMs_foldl_set {entries : List (String × List Double)} {row : SeriesPoint}
    (h : ∀ e ∈ entries, e.1 ≠ "time_ms") :
    (entries.foldl (fun row e => row.set e.1 (.ofDouble (average e.2))) row).timeMs = row.timeMs := by
  induction entries generalizing row with
  | nil => rfl
  | cons e entries ih =>
    rw [List.forall_mem_cons] at h
    rw [List.foldl_cons, ih h.2, timeMs_set h.1]

theorem timeMs_buildChartData (localeTime : ℚ → String) {options : SeriesOptions} (hpos : ¬ options.bucketMs ≤ 0) :
    (buildChartData localeTime metrics options).map SeriesPoint.timeMs =
      (gridOf options.bucketMs (minBucket options.bucketMs options.rangeMs (metrics.filter (·.success)))
        (maxBucket options.bucketMs options.rangeMs (metrics.filter (·.success)))).map Cell.number := by
  unfold buildChartData buildBucketedRows
  rw [if_neg hpos]
  refine timeMs_rowsOf fun b => timeMs_foldl_set fun e he => ?_
  cases hvalues : List.lookup b (valuesOf (fun m => seriesLabel m options.includeCheckType) options.bucketMs
      (metrics.filter (·.success))) with
  | none =>
    rw [hvalues] at he
    cases he
  | some byLabel =>
    rw [hvalues] at he
    obtain ⟨l₁, l₂, hsplit, -⟩ := List.lookup_eq_some_iff.1 hvalues
    obtain ⟨m, hm⟩ := label_of_mem_values (b, byLabel) (hsplit ▸ List.mem_append_right l₁ List.mem_cons_self) e he
    rw [hm]
    exact seriesLabel_ne m _ (by decide)

theorem timeMs_buildOutcomeRows (localeTime : ℚ → String) {options : SeriesOptions} (hpos : ¬ options.bucketMs ≤ 0) :
    (buildOutcomeRows localeTime metrics options).map SeriesPoint.timeMs =
      (gridOf options.bucketMs (minBucket options.bucketMs options.rangeMs metrics)
        (maxBucket options.bucketMs options.rangeMs metrics)).map Cell.number := by
  unfold buildOutcomeRows
  rw [if_neg hpos]
  exact timeMs_rowsOf fun b => rfl

/-! ## Alignment -/

/-- Every failed metric lies in a bucket between those of the range and of the successful metrics. -/
def Covered (options : SeriesOptions) (metrics : List MetricPoint) : Prop :=
  ∀ m ∈ metrics, m.success = false →
    ((∃ r ∈ options.rangeMs, bucketOf options.bucketMs r.1 ≤ bucketOf options.bucketMs m.timeMs) ∨
      ∃ n ∈ metrics, n.success = true ∧
        bucketOf options.bucketMs n.timeMs ≤ bucketOf options.bucketMs m.timeMs) ∧
    ((∃ r ∈ options.rangeMs, bucketOf options.bucketMs m.timeMs ≤ bucketOf options.bucketMs r.2) ∨
      ∃ n ∈ metrics, n.success = true ∧
        bucketOf options.bucketMs m.timeMs ≤ bucketOf options.bucketMs n.timeMs)

/-- The successful metrics reach as far as all do. -/
theorem covered_iff {options : SeriesOptions} : Covered options metrics ↔ ∀ m ∈ metrics, m.success = false →
    Below (minBucket options.bucketMs options.rangeMs (metrics.filter (·.success)))
        (bucketOf options.bucketMs m.timeMs) ∧
      Above (maxBucket options.bucketMs options.rangeMs (metrics.filter (·.success)))
        (bucketOf options.bucketMs m.timeMs) := by
  simp only [Covered, below_minBucket, above_maxBucket, List.mem_filter, and_assoc]

theorem extent_of_covered {options : SeriesOptions} (h : Covered options metrics) :
    minBucket options.bucketMs options.rangeMs (metrics.filter (·.success)) =
        minBucket options.bucketMs options.rangeMs metrics ∧
      maxBucket options.bucketMs options.rangeMs (metrics.filter (·.success)) =
        maxBucket options.bucketMs options.rangeMs metrics := by
  rw [covered_iff] at h
  constructor
  · refine eq_of_below fun t => ⟨fun hbelow => ?_, fun hbelow => ?_⟩
    · rw [below_minBucket] at hbelow ⊢
      refine hbelow.imp_right ?_
      rintro ⟨m, hm, hle⟩
      exact ⟨m, List.mem_of_mem_filter hm, hle⟩
    · rcases below_minBucket.1 hbelow with hrange | ⟨m, hm, hle⟩
      · exact below_minBucket.2 (.inl hrange)
      · cases hsuccess : m.success with
        | true => exact below_minBucket.2 (.inr ⟨m, List.mem_filter.2 ⟨hm, hsuccess⟩, hle⟩)
        | false =>
          obtain ⟨b, hb, hb'⟩ := (h m hm hsuccess).1
          exact ⟨b, hb, hb'.trans hle⟩
  · refine eq_of_above fun t => ⟨fun habove => ?_, fun habove => ?_⟩
    · rw [above_maxBucket] at habove ⊢
      refine habove.imp_right ?_
      rintro ⟨m, hm, hle⟩
      exact ⟨m, List.mem_of_mem_filter hm, hle⟩
    · rcases above_maxBucket.1 habove with hrange | ⟨m, hm, hle⟩
      · exact above_maxBucket.2 (.inl hrange)
      · cases hsuccess : m.success with
        | true => exact above_maxBucket.2 (.inr ⟨m, List.mem_filter.2 ⟨hm, hsuccess⟩, hle⟩)
        | false =>
          obtain ⟨b, hb, hb'⟩ := (h m hm hsuccess).2
          exact ⟨b, hb, hle.trans hb'⟩

/-- Rows from the first to the last bucket of all metrics tell both buckets. -/
theorem extent_of_gridOf (hpos : 0 < bucketMs) {metrics' : List MetricPoint} {m : MetricPoint} (hm : m ∈ metrics)
    (h : gridOf bucketMs (minBucket bucketMs rangeMs metrics') (maxBucket bucketMs rangeMs metrics') =
      gridOf bucketMs (minBucket bucketMs rangeMs metrics) (maxBucket bucketMs rangeMs metrics)) :
    minBucket bucketMs rangeMs metrics' = minBucket bucketMs rangeMs metrics ∧
      maxBucket bucketMs rangeMs metrics' = maxBucket bucketMs rangeMs metrics := by
  have hbelow : Below (minBucket bucketMs rangeMs metrics) (bucketOf bucketMs m.timeMs) :=
    below_minBucket.2 (.inr ⟨m, hm, le_rfl⟩)
  have habove : Above (maxBucket bucketMs rangeMs metrics) (bucketOf bucketMs m.timeMs) :=
    above_maxBucket.2 (.inr ⟨m, hm, le_rfl⟩)
  obtain ⟨first, hfirst, hle⟩ := hbelow
  obtain ⟨last, hlast, hle'⟩ := habove
  obtain ⟨t, rfl⟩ := minBucket_eq_bucketOf hfirst
  obtain ⟨u, rfl⟩ := maxBucket_eq_bucketOf hlast
  have hij : ⌊t / bucketMs⌋ ≤ ⌊u / bucketMs⌋ :=
    Int.cast_le.1 ((mul_le_mul_iff_left₀ hpos).1 (hle.trans hle'))
  have hvisited := bucketTimes_ne_nil hpos hij
  rw [hfirst, hlast] at h ⊢
  cases hfirst' : minBucket bucketMs rangeMs metrics' with
  | none =>
    rw [hfirst'] at h
    exact absurd h.symm hvisited
  | some first' =>
    cases hlast' : maxBucket bucketMs rangeMs metrics' with
    | none =>
      rw [hfirst', hlast'] at h
      exact absurd h.symm hvisited
    | some last' =>
      rw [hfirst', hlast'] at h
      obtain ⟨t', rfl⟩ := minBucket_eq_bucketOf hfirst'
      obtain ⟨u', rfl⟩ := maxBucket_eq_bucketOf hlast'
      obtain ⟨hi, hj⟩ := bucketTimes_inj hpos hij h.symm
      exact ⟨congrArg some (by rw [bucketOf, bucketOf, hi]), congrArg some (by rw [bucketOf, bucketOf, hj])⟩

/-- **Aligned rows.** The chart and the strip have rows at the same times exactly if there are no buckets or every
failed metric lies in a bucket between those of the range and of the successful metrics. -/
theorem aligned_iff (localeTime : ℚ → String) (metrics : List MetricPoint) (options : SeriesOptions) :
    (buildChartData localeTime metrics options).map SeriesPoint.timeMs =
        (buildOutcomeRows localeTime metrics options).map SeriesPoint.timeMs ↔
      options.bucketMs ≤ 0 ∨ Covered options metrics := by
  by_cases hpos : options.bucketMs ≤ 0
  · refine iff_of_true ?_ (.inl hpos)
    unfold buildChartData buildBucketedRows buildOutcomeRows
    rw [if_pos hpos, if_pos hpos]
  · rw [timeMs_buildChartData localeTime hpos, timeMs_buildOutcomeRows localeTime hpos, or_iff_right hpos]
    constructor
    · intro h
      rw [covered_iff]
      intro m hm _
      have h := List.map_injective_iff.2 (fun _ _ => Cell.number.inj) h
      obtain ⟨hmin, hmax⟩ := extent_of_gridOf (not_le.1 hpos) hm h
      rw [hmin, hmax]
      exact ⟨below_minBucket.2 (.inr ⟨m, hm, le_rfl⟩), above_maxBucket.2 (.inr ⟨m, hm, le_rfl⟩)⟩
    · intro h
      obtain ⟨hmin, hmax⟩ := extent_of_covered h
      rw [hmin, hmax]

/-- A probe that failed two seconds behind the end of the range: the clock of its agent is ahead of the browser's. -/
def failedAhead : MetricPoint where
  timeMs := 5000
  agentId := "edge"
  checkType := "http_get"
  target := "example.com"
  success := false
  value := .zero

/-- **Two more rows.** The strip goes on where the chart ends. -/
theorem strip_longer :
    (buildChartData toString [failedAhead] { rangeMs := some (0, 3000) }).map SeriesPoint.timeMs =
        [.number 0, .number 1000, .number 2000, .number 3000] ∧
      (buildOutcomeRows toString [failedAhead] { rangeMs := some (0, 3000) }).map SeriesPoint.timeMs =
        [.number 0, .number 1000, .number 2000, .number 3000, .number 4000, .number 5000] := by
  decide +kernel

end PudimNetMon.Dashboard
