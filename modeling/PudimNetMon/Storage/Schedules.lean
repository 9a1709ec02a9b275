import Mathlib.Algebra.Ring.Int.Defs
import Mathlib.Algebra.Ring.Nat
import Mathlib.Data.List.Sort
import Mathlib.Order.Bounds.Defs
import PudimNetMon.Lib.KeyedTable

/-!
# Command schedules (`timescale_storage.cpp`, `NextSlot` of `command_scheduler.cpp`)

The table `command_schedules` with the statements the scheduler runs on it. C++ computes on `Int64`; PostgreSQL refuses
a statement in which a `BIGINT` overflows.

- `nextSlot_isLeast`: the next slot is the first one behind the given time, for times and intervals of ordinary size;
- `rebaseTarget_gt`: a stale schedule is re-based behind the present.
-/

namespace PudimNetMon.Storage

structure CommandSchedule where
  id : String := ""
  label : String := ""
  agentId : String := ""
  commandId : String := ""
  paramsJson : String := "\x7b\x7d"
  windowStartUnixMs : Int64 := 0
  windowEndUnixMs : Int64 := 0
  intervalSec : Int64 := 0
  nextRunUnixMs : Int64 := 0
  enabled : Bool := false
  deriving DecidableEq, Repr

abbrev CommandSchedules := KeyedTable CommandSchedule.id

/-! ## Slots -/

/-- `NextSlot`. -/
def nextSlot (windowStartMs intervalMs afterMs : Int64) : Int64 :=
  if intervalMs ≤ 0 then afterMs + 3600 * 1000
  else if afterMs ≤ windowStartMs then windowStartMs + intervalMs
  else
    let elapsed := afterMs - windowStartMs
    let k := elapsed / intervalMs
    windowStartMs + (k + 1) * intervalMs

/-- The time is a whole number of intervals, at least one, behind the window start. -/
def IsSlot (windowStartMs intervalMs t : Int) : Prop := ∃ k : Int, 1 ≤ k ∧ t = windowStartMs + k * intervalMs

instance preorderInt64 : Preorder Int64 where
  le_refl := Int64.le_refl
  le_trans _ _ _ := Int64.le_trans
  lt_iff_le_not_ge a b := by
    rw [Int64.lt_iff_toInt_lt, Int64.le_iff_toInt_le, Int64.le_iff_toInt_le]
    omega

/-- The sum, difference, product and quotient are exact when they are `int64_t`. -/
theorem toInt_add_exact {a b : Int64} (h : -2 ^ 63 ≤ a.toInt + b.toInt) (h' : a.toInt + b.toInt < 2 ^ 63) :
    (a + b).toInt = a.toInt + b.toInt := by
  rw [Int64.toInt_add]
  exact Int.bmod_eq_of_le (by omega) (by omega)

theorem toInt_sub_exact {a b : Int64} (h : -2 ^ 63 ≤ a.toInt - b.toInt) (h' : a.toInt - b.toInt < 2 ^ 63) :
    (a - b).toInt = a.toInt - b.toInt := by
  rw [Int64.toInt_sub]
  exact Int.bmod_eq_of_le (by omega) (by omega)

theorem toInt_mul_exact {a b : Int64} (h : -2 ^ 63 ≤ a.toInt * b.toInt) (h' : a.toInt * b.toInt < 2 ^ 63) :
    (a * b).toInt = a.toInt * b.toInt := by
  rw [Int64.toInt_mul]
  exact Int.bmod_eq_of_le (by omega) (by omega)

theorem toInt_div_exact {a b : Int64} (ha : 0 ≤ a.toInt) (hb : 0 < b.toInt) :
    (a / b).toInt = a.toInt / b.toInt := by
  have hlt := a.toInt_lt
  have hnonneg : 0 ≤ a.toInt / b.toInt := Int.ediv_nonneg ha hb.le
  have hle : a.toInt / b.toInt ≤ a.toInt := Int.ediv_le_self _ ha
  rw [Int64.toInt_div, Int.tdiv_eq_ediv_of_nonneg ha]
  exact Int.bmod_eq_of_le (by omega) (by omega)

/-- The last multiple of an interval up to a time, and the next one. -/
theorem ediv_mul_bounds (e : Int) {d : Int} (hd : 0 < d) : e / d * d ≤ e ∧ e < (e / d + 1) * d := by
  have hmod := Int.emod_nonneg e hd.ne'
  have hlt := Int.emod_lt_of_pos e hd
  have hsplit : e / d * d + e % d = e := Int.ediv_mul_add_emod e d
  rw [Int.add_mul, Int.one_mul]
  omega

/-- **Next slot.** It is the first slot behind the given time. -/
theorem nextSlot_isLeast {ws iv after : Int64} (hws : -2 ^ 61 ≤ ws.toInt) (hws' : ws.toInt ≤ 2 ^ 61)
    (hiv : 0 < iv.toInt) (hiv' : iv.toInt ≤ 2 ^ 61) (hafter : after.toInt ≤ 2 ^ 61) :
    IsLeast {t : Int | IsSlot ws.toInt iv.toInt t ∧ after.toInt < t} (nextSlot ws iv after).toInt := by
  have hpos : ¬ iv ≤ 0 := by
    rw [Int64.le_iff_toInt_le]
    simpa using hiv
  unfold nextSlot
  rw [if_neg hpos]
  by_cases hle : after ≤ ws
  · rw [if_pos hle, toInt_add_exact (by omega) (by omega)]
    rw [Int64.le_iff_toInt_le] at hle
    refine ⟨⟨⟨1, Int.le_refl 1, by omega⟩, by omega⟩, ?_⟩
    rintro t ⟨⟨k, hk, rfl⟩, -⟩
    have : 1 * iv.toInt ≤ k * iv.toInt := Int.mul_le_mul_of_nonneg_right hk hiv.le
    omega
  · rw [if_neg hle]
    rw [Int64.le_iff_toInt_le] at hle
    simp only
    have he : (after - ws).toInt = after.toInt - ws.toInt := toInt_sub_exact (by omega) (by omega)
    have hk : ((after - ws) / iv).toInt = (after.toInt - ws.toInt) / iv.toInt := by
      rw [toInt_div_exact (by omega) hiv, he]
    obtain ⟨hlow, hhigh⟩ := ediv_mul_bounds (after.toInt - ws.toInt) hiv
    have hnonneg : 0 ≤ (after.toInt - ws.toInt) / iv.toInt := Int.ediv_nonneg (by omega) hiv.le
    have hself : (after.toInt - ws.toInt) / iv.toInt ≤ after.toInt - ws.toInt := Int.ediv_le_self _ (by omega)
    generalize (after.toInt - ws.toInt) / iv.toInt = q at hk hlow hhigh hnonneg hself
    have hk1 : ((after - ws) / iv + 1).toInt = q + 1 := by
      rw [toInt_add_exact (by rw [hk]; simp; omega) (by rw [hk]; simp; omega), hk]
      rfl
    have hsucc : (q + 1) * iv.toInt = q * iv.toInt + iv.toInt := by rw [Int.add_mul, Int.one_mul]
    have hprodnonneg : 0 ≤ q * iv.toInt := Int.mul_nonneg hnonneg hiv.le
    have hprod : (((after - ws) / iv + 1) * iv).toInt = (q + 1) * iv.toInt := by
      rw [toInt_mul_exact (by rw [hk1, hsucc]; omega) (by rw [hk1, hsucc]; omega), hk1]
    rw [toInt_add_exact (by rw [hprod, hsucc]; omega) (by rw [hprod, hsucc]; omega), hprod]
    refine ⟨⟨⟨q + 1, by omega, rfl⟩, by omega⟩, ?_⟩
    rintro t ⟨⟨k, hk', rfl⟩, hlt⟩
    -- a slot behind the time has at least the next index
    have hqk : q + 1 ≤ k := by
      by_contra hlt'
      have : k * iv.toInt ≤ q * iv.toInt := Int.mul_le_mul_of_nonneg_right (by omega) hiv.le
      omega
    have : (q + 1) * iv.toInt ≤ k * iv.toInt := Int.mul_le_mul_of_nonneg_right hqk hiv.le
    omega

/-! ## Statements -/

def kToleranceMs : Int64 := 2000

/-- A `BIGINT` result; out of range is an error. -/
def bigint (x : Int) : Option Int64 := if -2 ^ 63 ≤ x ∧ x < 2 ^ 63 then some (Int64.ofInt x) else none

theorem toInt_of_bigint {x : Int} {y : Int64} (h : bigint x = some y) : y.toInt = x := by
  unfold bigint at h
  split at h
  · rename_i hrange
    cases h
    exact Int64.toInt_ofInt_of_le hrange.1 hrange.2
  · cases h

theorem bigint_eq_some_iff {x : Int} {y : Int64} : bigint x = some y ↔ y.toInt = x := by
  refine ⟨toInt_of_bigint, fun h => ?_⟩
  subst h
  unfold bigint
  rw [if_pos ⟨y.le_toInt, y.toInt_lt⟩, Int64.ofInt_toInt]

theorem isSome_bigint_iff {x : Int} : (bigint x).isSome ↔ -2 ^ 63 ≤ x ∧ x < 2 ^ 63 := by
  unfold bigint
  split <;> simp_all

/-- `window_start_unix_ms + interval_sec * 1000 * (((now - window_start_unix_ms) / (interval_sec * 1000)) + 1)`. -/
def rebaseTarget (now : Int64) (r : CommandSchedule) : Option Int64 := do
  let interval ← bigint (r.intervalSec.toInt * 1000)
  let elapsed ← bigint (now.toInt - r.windowStartUnixMs.toInt)
  if interval = 0 then none
  else
    let k ← bigint (elapsed.toInt.tdiv interval.toInt)
    let k ← bigint (k.toInt + 1)
    let offset ← bigint (interval.toInt * k.toInt)
    bigint (r.windowStartUnixMs.toInt + offset.toInt)

/-- The `WHERE` clause of `RescheduleStaleSchedules`. -/
def isStale (now : Int64) (r : CommandSchedule) : Bool :=
  r.enabled && decide (r.windowStartUnixMs ≤ now - kToleranceMs) && decide (now ≤ r.windowEndUnixMs) &&
    decide (r.nextRunUnixMs < now - kToleranceMs)

/-- A row after the `UPDATE`; none when its new value is an error. -/
def rebaseRow (now : Int64) (r : CommandSchedule) : Option CommandSchedule :=
  if isStale now r then (rebaseTarget now r).map fun t => { r with nextRunUnixMs := t } else some r

theorem rebaseRow_id (now : Int64) (r : CommandSchedule) : ((rebaseRow now r).getD r).id = r.id := by
  unfold rebaseRow
  split
  · cases rebaseTarget now r <;> rfl
  · rfl

/-- `RescheduleStaleSchedules`. An error in one row leaves all rows as they are. -/
def rescheduleStaleSchedules (now : Int64) (t : CommandSchedules) : CommandSchedules :=
  if t.rows.all fun r => (rebaseRow now r).isSome then
    t.modify (fun r => (rebaseRow now r).getD r) (rebaseRow_id now)
  else t

/-- `ListDueCommandSchedules`: at most 20 due rows, the earliest slot first. -/
def listDueCommandSchedules (now : Int64) (t : CommandSchedules) : List CommandSchedule :=
  ((t.rows.filter fun r => r.enabled && decide (r.windowStartUnixMs ≤ now) && decide (now ≤ r.windowEndUnixMs) &&
    decide (now - kToleranceMs ≤ r.nextRunUnixMs) && decide (r.nextRunUnixMs ≤ now + kToleranceMs)).insertionSort
    fun r s => r.nextRunUnixMs ≤ s.nextRunUnixMs).take 20

/-- The `WHERE` clause of `AdvanceCommandScheduleNextRun`. -/
def isExpected (id : String) (expectedMs : Int64) (r : CommandSchedule) : Bool :=
  decide (r.id = id) && decide (r.nextRunUnixMs = expectedMs) && r.enabled

def advanceRow (id : String) (expectedMs newNextMs : Int64) (r : CommandSchedule) : CommandSchedule :=
  if isExpected id expectedMs r then { r with nextRunUnixMs := newNextMs } else r

theorem advanceRow_id (id : String) (expectedMs newNextMs : Int64) (r : CommandSchedule) :
    (advanceRow id expectedMs newNextMs r).id = r.id := by
  unfold advanceRow
  split <;> rfl

/-- `AdvanceCommandScheduleNextRun`: whether one row was updated, and the table. -/
def advanceCommandScheduleNextRun (id : String) (expectedMs newNextMs : Int64) (t : CommandSchedules) :
    Bool × CommandSchedules :=
  (decide ((t.rows.filter (isExpected id expectedMs)).length = 1),
    t.modify (advanceRow id expectedMs newNextMs) (advanceRow_id id expectedMs newNextMs))

def enableRow (id : String) (enabled : Bool) (r : CommandSchedule) : CommandSchedule :=
  if r.id = id then { r with enabled := enabled } else r

theorem enableRow_id (id : String) (enabled : Bool) (r : CommandSchedule) : (enableRow id enabled r).id = r.id := by
  unfold enableRow
  split <;> rfl

/-- The statement of `SetCommandScheduleEnabled`. -/
def setCommandScheduleEnabled (id : String) (enabled : Bool) (t : CommandSchedules) : CommandSchedules :=
  t.modify (enableRow id enabled) (enableRow_id id enabled)

/-- The statement of `DeleteCommandSchedule`. -/
def deleteCommandSchedule (id : String) (t : CommandSchedules) : CommandSchedules :=
  t.filter fun r => decide (r.id ≠ id)

/-! ## Where the statements move a row -/

/-- **Re-basing.** With a positive interval the new slot is behind the present. -/
theorem rebaseTarget_gt {now t : Int64} {r : CommandSchedule} (hiv : 0 < r.intervalSec.toInt)
    (hws : r.windowStartUnixMs ≤ now) (h : rebaseTarget now r = some t) : now < t := by
  unfold rebaseTarget at h
  obtain ⟨interval, hint, h⟩ := Option.bind_eq_some_iff.1 h
  obtain ⟨elapsed, hel, h⟩ := Option.bind_eq_some_iff.1 h
  split at h
  · cases h
  obtain ⟨k, hk, h⟩ := Option.bind_eq_some_iff.1 h
  obtain ⟨k', hk', h⟩ := Option.bind_eq_some_iff.1 h
  obtain ⟨offset, hoff, h⟩ := Option.bind_eq_some_iff.1 h
  rw [Int64.le_iff_toInt_le] at hws
  have hpos : 0 < interval.toInt := by
    rw [toInt_of_bigint hint]
    omega
  have hel0 : 0 ≤ elapsed.toInt := by
    rw [toInt_of_bigint hel]
    omega
  have hbound := (ediv_mul_bounds elapsed.toInt hpos).2
  rw [Int64.lt_iff_toInt_lt, toInt_of_bigint h, toInt_of_bigint hoff, toInt_of_bigint hk', toInt_of_bigint hk,
    Int.tdiv_eq_ediv_of_nonneg hel0, Int.mul_comm]
  rw [toInt_of_bigint hel] at hbound ⊢
  omega

/-- A re-based row is the old one with a later slot, or the old one. -/
theorem rebaseRow_le {now : Int64} {r : CommandSchedule} (hiv : isStale now r = true → 0 < r.intervalSec.toInt)
    (hnow : -2 ^ 62 ≤ now.toInt) : r.nextRunUnixMs ≤ ((rebaseRow now r).getD r).nextRunUnixMs := by
  unfold rebaseRow
  split
  · rename_i hstale
    cases ht : rebaseTarget now r with
    | none => exact Int64.le_refl _
    | some t =>
      have hpos := hiv hstale
      simp only [isStale, Bool.and_eq_true, decide_eq_true_eq] at hstale
      obtain ⟨⟨⟨-, hws⟩, -⟩, hnext⟩ := hstale
      have hlt := now.toInt_lt
      have htolerance : kToleranceMs.toInt = 2000 := rfl
      have hearlier : (now - kToleranceMs).toInt = now.toInt - 2000 :=
        toInt_sub_exact (by rw [htolerance]; omega) (by rw [htolerance]; omega)
      rw [Int64.le_iff_toInt_le, hearlier] at hws
      rw [Int64.lt_iff_toInt_lt, hearlier] at hnext
      have hgt := rebaseTarget_gt hpos (by rw [Int64.le_iff_toInt_le]; omega) ht
      rw [Int64.lt_iff_toInt_lt] at hgt
      rw [Int64.le_iff_toInt_le]
      simp only [Option.map_some, Option.getD_some]
      omega
  · exact Int64.le_refl _

/-- A compare-and-set to a later value moves rows forward. -/
theorem advanceRow_le {id : String} {expectedMs newNextMs : Int64} (h : expectedMs < newNextMs) (r : CommandSchedule) :
    r.nextRunUnixMs ≤ (advanceRow id expectedMs newNextMs r).nextRunUnixMs := by
  unfold advanceRow
  split
  · rename_i hexp
    simp only [isExpected, Bool.and_eq_true, decide_eq_true_eq] at hexp
    rw [hexp.1.2]
    exact le_of_lt h
  · exact Int64.le_refl _

/-- A successful compare-and-set found the row of the id with the expected value, and moved it. -/
theorem advance_updated {id : String} {expectedMs newNextMs : Int64} {t : CommandSchedules}
    (h : (advanceCommandScheduleNextRun id expectedMs newNextMs t).1 = true) :
    (∃ r ∈ t.rows, r.id = id ∧ r.nextRunUnixMs = expectedMs) ∧
      ∀ r ∈ t.rows, r.id = id → (advanceRow id expectedMs newNextMs r).nextRunUnixMs = newNextMs := by
  simp only [advanceCommandScheduleNextRun, decide_eq_true_eq] at h
  obtain ⟨r, hr⟩ := List.length_eq_one_iff.1 h
  obtain ⟨hmem, hexp⟩ := List.mem_filter.1 (hr ▸ List.mem_singleton_self r)
  have hexp' := hexp
  simp only [isExpected, Bool.and_eq_true, decide_eq_true_eq] at hexp'
  refine ⟨⟨r, hmem, hexp'.1⟩, fun s hs hid => ?_⟩
  rw [t.eq_of_key hs hmem (hid.trans hexp'.1.1.symm), advanceRow, if_pos hexp]

end PudimNetMon.Storage
