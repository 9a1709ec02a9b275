import PudimNetMon.Collector.HttpServer
import PudimNetMon.Collector.Scheduler

/-!
# Slots of admitted schedules

The create handler checks a least interval and no greatest one. `nextSlotChecked` is `NextSlot` with its `int64_t`
operations checked; the `UPDATE` of the re-basing is checked by PostgreSQL.

- `claimSlot_eq_rebaseTarget`: the two formulas give the same slot, and overflow together;
- `overflow_free_iff`: the rows of which nothing overflows at a tick, and the tables that are re-based;
- `slots_agree`: the next slot is the least one, and where the rows stand in a run without overflow.
-/

namespace PudimNetMon.Collector

open Storage

/-! ## Slots as integers -/

/-- The first slot behind a time that is not in front of the window. -/
def slotBehind (ws iv now : Int) : Int := ws + ((now - ws) / iv + 1) * iv

variable {ws iv now : Int}

theorem lt_slotBehind (ws now : Int) (hiv : 0 < iv) : now < slotBehind ws iv now := by
  have := (ediv_mul_bounds (now - ws) hiv).2
  unfold slotBehind
  omega

/-- It is the least one, counted from the window start in either direction. -/
theorem slotBehind_isLeast (hiv : 0 < iv) :
    IsLeast {t : Int | (∃ k : Int, t = ws + k * iv) ∧ now < t} (slotBehind ws iv now) := by
  refine ⟨⟨⟨_, rfl⟩, lt_slotBehind ws now hiv⟩, ?_⟩
  rintro t ⟨⟨k, rfl⟩, hlt⟩
  have hlow := (ediv_mul_bounds (now - ws) hiv).1
  -- a slot behind the time has at least the next index
  have hk : (now - ws) / iv + 1 ≤ k := by
    by_contra hlt'
    have : k * iv ≤ (now - ws) / iv * iv := Int.mul_le_mul_of_nonneg_right (by omega) hiv.le
    omega
  have : ((now - ws) / iv + 1) * iv ≤ k * iv := Int.mul_le_mul_of_nonneg_right hk hiv.le
  unfold slotBehind
  omega

/-- The slot and the way to it are `int64_t`. -/
structure Fits (ws iv now : Int) : Prop where
  interval : iv < 2 ^ 63
  slot : slotBehind ws iv now < 2 ^ 63
  offset : slotBehind ws iv now - ws < 2 ^ 63

/-! ## The two formulas -/

/-- `NextSlot`; none when an operation overflows. -/
def nextSlotChecked (windowStartMs intervalMs afterMs : Int64) : Option Int64 :=
  if intervalMs ≤ 0 then bigint (afterMs.toInt + 3600 * 1000)
  else if afterMs ≤ windowStartMs then bigint (windowStartMs.toInt + intervalMs.toInt)
  else do
    let elapsed ← bigint (afterMs.toInt - windowStartMs.toInt)
    let k ← bigint (elapsed.toInt.tdiv intervalMs.toInt)
    let k ← bigint (k.toInt + 1)
    let offset ← bigint (k.toInt * intervalMs.toInt)
    bigint (windowStartMs.toInt + offset.toInt)

/-- The slot that the loop over the due rows moves a row to. -/
def claimSlot (now : Int64) (r : CommandSchedule) : Option Int64 := do
  let interval ← bigint (r.intervalSec.toInt * 1000)
  nextSlotChecked r.windowStartUnixMs interval now

theorem exists_toInt {x : Int} (h : -2 ^ 63 ≤ x) (h' : x < 2 ^ 63) : ∃ y : Int64, y.toInt = x :=
  ⟨Int64.ofInt x, Int64.toInt_ofInt_of_le h h'⟩

/-- The operations from the elapsed time to the slot. -/
theorem chain_iff {t : Int64} (hiv : 0 < iv) (hle : ws ≤ now) :
    (∃ e : Int64, e.toInt = now - ws ∧ ∃ k : Int64, k.toInt = e.toInt.tdiv iv ∧ ∃ k' : Int64, k'.toInt = k.toInt + 1 ∧
        ∃ o : Int64, o.toInt = k'.toInt * iv ∧ t.toInt = ws + o.toInt) ↔
      t.toInt = slotBehind ws iv now ∧ slotBehind ws iv now - ws < 2 ^ 63 := by
  have hnonneg : 0 ≤ now - ws := by omega
  have hq : 0 ≤ (now - ws) / iv := Int.ediv_nonneg hnonneg hiv.le
  unfold slotBehind
  constructor
  · rintro ⟨e, he, k, hk, k', hk', o, ho, ht⟩
    rw [he, Int.tdiv_eq_ediv_of_nonneg hnonneg] at hk
    rw [hk', hk] at ho
    have := o.toInt_lt
    omega
  · rintro ⟨ht, hoffset⟩
    -- the last product bounds all that is computed on the way
    have hprod := (ediv_mul_bounds (now - ws) hiv).2
    have hindex : ((now - ws) / iv + 1) * 1 ≤ ((now - ws) / iv + 1) * iv :=
      Int.mul_le_mul_of_nonneg_left (by omega) (by omega)
    obtain ⟨e, he⟩ := exists_toInt (x := now - ws) (by omega) (by omega)
    obtain ⟨k, hk⟩ := exists_toInt (x := (now - ws) / iv) (by omega) (by omega)
    obtain ⟨k', hk'⟩ := exists_toInt (x := (now - ws) / iv + 1) (by omega) (by omega)
    obtain ⟨o, ho⟩ := exists_toInt (x := ((now - ws) / iv + 1) * iv) (by omega) (by omega)
    refine ⟨e, he, k, ?_, k', by rw [hk', hk], o, by rw [ho, hk'], by omega⟩
    rw [hk, he, Int.tdiv_eq_ediv_of_nonneg hnonneg]

/-- `NextSlot` without overflow, behind the window start. -/
theorem nextSlotChecked_eq_some_iff {ws iv now t : Int64} (hiv : 0 < iv.toInt) (hle : ws ≤ now) :
    nextSlotChecked ws iv now = some t ↔
      t.toInt = slotBehind ws.toInt iv.toInt now.toInt ∧
        slotBehind ws.toInt iv.toInt now.toInt - ws.toInt < 2 ^ 63 := by
  have hpos : ¬iv ≤ 0 := by
    rw [Int64.le_iff_toInt_le]
    simpa using hiv
  rw [Int64.le_iff_toInt_le] at hle
  unfold nextSlotChecked
  rw [if_neg hpos]
  split
  · -- at the window start itself
    rename_i hle'
    rw [Int64.le_iff_toInt_le] at hle'
    have hzero : now.toInt - ws.toInt = 0 := by omega
    have hfirst : slotBehind ws.toInt iv.toInt now.toInt = ws.toInt + iv.toInt := by
      simp [slotBehind, hzero]
    have := iv.toInt_lt
    rw [bigint_eq_some_iff, hfirst]
    omega
  · simp only [bind, Option.bind_eq_some_iff, bigint_eq_some_iff]
    exact chain_iff hiv hle

/-- The slot of a claim. -/
theorem claimSlot_eq_some_iff {now t : Int64} {r : CommandSchedule} (hiv : 0 < r.intervalSec.toInt)
    (hle : r.windowStartUnixMs ≤ now) :
    claimSlot now r = some t ↔ r.intervalSec.toInt * 1000 < 2 ^ 63 ∧
      t.toInt = slotBehind r.windowStartUnixMs.toInt (r.intervalSec.toInt * 1000) now.toInt ∧
        slotBehind r.windowStartUnixMs.toInt (r.intervalSec.toInt * 1000) now.toInt - r.windowStartUnixMs.toInt <
          2 ^ 63 := by
  simp only [claimSlot, bind, Option.bind_eq_some_iff, bigint_eq_some_iff]
  constructor
  · rintro ⟨interval, hinterval, h⟩
    rw [nextSlotChecked_eq_some_iff (by omega) hle, hinterval] at h
    have := interval.toInt_lt
    exact ⟨by omega, h⟩
  · rintro ⟨hlt, h⟩
    obtain ⟨interval, hinterval⟩ := exists_toInt (x := r.intervalSec.toInt * 1000) (by omega) hlt
    refine ⟨interval, hinterval, ?_⟩
    rw [nextSlotChecked_eq_some_iff (by omega) hle, hinterval]
    exact h

/-- The slot of the re-basing. -/
theorem rebaseTarget_eq_some_iff {now t : Int64} {r : CommandSchedule} (hiv : 0 < r.intervalSec.toInt)
    (hle : r.windowStartUnixMs ≤ now) :
    rebaseTarget now r = some t ↔ r.intervalSec.toInt * 1000 < 2 ^ 63 ∧
      t.toInt = slotBehind r.windowStartUnixMs.toInt (r.intervalSec.toInt * 1000) now.toInt ∧
        slotBehind r.windowStartUnixMs.toInt (r.intervalSec.toInt * 1000) now.toInt - r.windowStartUnixMs.toInt <
          2 ^ 63 := by
  rw [Int64.le_iff_toInt_le] at hle
  rw [← chain_iff (by omega) hle]
  unfold rebaseTarget
  simp only [bind, Option.bind_eq_some_iff]
  constructor
  · rintro ⟨interval, hinterval, e, he, h⟩
    rw [bigint_eq_some_iff] at hinterval he
    split at h
    · cases h
    simp only [Option.bind_eq_some_iff, bigint_eq_some_iff, hinterval, Int.mul_comm (r.intervalSec.toInt * 1000)] at h
    have := interval.toInt_lt
    exact ⟨by omega, e, he, h⟩
  · rintro ⟨hlt, e, he, h⟩
    obtain ⟨interval, hinterval⟩ := exists_toInt (x := r.intervalSec.toInt * 1000) (by omega) hlt
    have hne : interval ≠ 0 := by
      rintro rfl
      simp at hinterval
      omega
    refine ⟨interval, bigint_eq_some_iff.2 hinterval, e, bigint_eq_some_iff.2 he, ?_⟩
    rw [if_neg hne]
    simp only [Option.bind_eq_some_iff, bigint_eq_some_iff, hinterval, Int.mul_comm (r.intervalSec.toInt * 1000)]
    exact h

/-- **One formula.** A claim and the re-basing give a row the same slot, and overflow on the same rows. -/
theorem claimSlot_eq_rebaseTarget {now : Int64} {r : CommandSchedule} (hiv : 0 < r.intervalSec.toInt)
    (hle : r.windowStartUnixMs ≤ now) : claimSlot now r = rebaseTarget now r :=
  Option.ext fun t => by rw [claimSlot_eq_some_iff hiv hle, rebaseTarget_eq_some_iff hiv hle]

/-- Nothing overflows on the way to the row's slot. -/
def SlotFits (now : Int64) (r : CommandSchedule) : Prop :=
  Fits r.windowStartUnixMs.toInt (r.intervalSec.toInt * 1000) now.toInt

theorem isSome_rebaseTarget_iff {now : Int64} {r : CommandSchedule} (hiv : 0 < r.intervalSec.toInt)
    (hle : r.windowStartUnixMs ≤ now) : (rebaseTarget now r).isSome ↔ SlotFits now r := by
  rw [Option.isSome_iff_exists]
  constructor
  · rintro ⟨t, ht⟩
    obtain ⟨hinterval, hslot, hoffset⟩ := (rebaseTarget_eq_some_iff hiv hle).1 ht
    have := t.toInt_lt
    exact ⟨hinterval, by omega, hoffset⟩
  · intro h
    have hlow := now.le_toInt
    have hmillis : 0 < r.intervalSec.toInt * 1000 := by omega
    have hgt := lt_slotBehind r.windowStartUnixMs.toInt now.toInt hmillis
    obtain ⟨t, ht⟩ := exists_toInt (by omega) h.slot
    exact ⟨t, (rebaseTarget_eq_some_iff hiv hle).2 ⟨h.interval, ht, h.offset⟩⟩

section

variable {a b c : Int64}

theorem ofInt_of_bigint {x : Int} (h : bigint x = some c) : Int64.ofInt x = c := by
  rw [← toInt_of_bigint h, Int64.ofInt_toInt]

theorem add_of_bigint (h : bigint (a.toInt + b.toInt) = some c) : a + b = c := by
  rw [← ofInt_of_bigint h, Int64.ofInt_add, Int64.ofInt_toInt, Int64.ofInt_toInt]

theorem sub_of_bigint (h : bigint (a.toInt - b.toInt) = some c) : a - b = c := by
  rw [← ofInt_of_bigint h, Int64.ofInt_sub, Int64.ofInt_toInt, Int64.ofInt_toInt]

theorem mul_of_bigint (h : bigint (a.toInt * b.toInt) = some c) : a * b = c := by
  rw [← ofInt_of_bigint h, Int64.ofInt_mul, Int64.ofInt_toInt, Int64.ofInt_toInt]

theorem div_of_bigint (h : bigint (a.toInt.tdiv b.toInt) = some c) : a / b = c := by
  have hlow := c.le_toInt
  have hhigh := c.toInt_lt
  rw [toInt_of_bigint h] at hlow hhigh
  rw [← Int64.toInt_inj, Int64.toInt_div, toInt_of_bigint h]
  exact Int.bmod_eq_of_le (by omega) (by omega)

end

/-- Operations that do not overflow are those of `int64_t`. -/
theorem nextSlot_of_checked {ws iv now t : Int64} (h : nextSlotChecked ws iv now = some t) :
    nextSlot ws iv now = t := by
  unfold nextSlotChecked at h
  unfold nextSlot
  split at h
  · rename_i hiv
    rw [if_pos hiv]
    exact add_of_bigint (b := 3600 * 1000) h
  rename_i hiv
  rw [if_neg hiv]
  split at h
  · rename_i hle
    rw [if_pos hle]
    exact add_of_bigint h
  rename_i hle
  rw [if_neg hle]
  simp only [bind, Option.bind_eq_some_iff] at h
  obtain ⟨e, he, k, hk, k', hk', o, ho, ht⟩ := h
  have hindex : k + 1 = k' := add_of_bigint (b := 1) hk'
  rw [sub_of_bigint he]
  dsimp only
  rw [div_of_bigint hk, hindex, mul_of_bigint ho, add_of_bigint ht]

/-- The loop's own arithmetic, where nothing overflows. -/
theorem nextSlot_of_claimSlot {now t : Int64} {r : CommandSchedule} (h : claimSlot now r = some t) :
    nextSlot r.windowStartUnixMs (r.intervalSec * 1000) now = t := by
  obtain ⟨interval, hinterval, h⟩ := Option.bind_eq_some_iff.1 h
  have hmul : r.intervalSec * 1000 = interval := mul_of_bigint (b := 1000) hinterval
  rw [hmul, nextSlot_of_checked h]

/-- **Next slot.** Without overflow it is the least one behind the time. -/
theorem nextSlot_isLeast_of_fits {ws iv now : Int64} (hiv : 0 < iv.toInt) (hle : ws ≤ now)
    (h : Fits ws.toInt iv.toInt now.toInt) :
    IsLeast {t : Int | (∃ k : Int, t = ws.toInt + k * iv.toInt) ∧ now.toInt < t} (nextSlot ws iv now).toInt := by
  have hlow := now.le_toInt
  have hgt := lt_slotBehind ws.toInt now.toInt hiv
  obtain ⟨t, ht⟩ := exists_toInt (by omega) h.slot
  rw [nextSlot_of_checked ((nextSlotChecked_eq_some_iff hiv hle).2 ⟨ht, h.offset⟩), ht]
  exact slotBehind_isLeast hiv

/-- The re-basing gives a row the slot of a claim. -/
theorem rebaseTarget_eq_nextSlot {now : Int64} {r : CommandSchedule} (hiv : 0 < r.intervalSec.toInt)
    (hle : r.windowStartUnixMs ≤ now) (h : SlotFits now r) :
    rebaseTarget now r = some (nextSlot r.windowStartUnixMs (r.intervalSec * 1000) now) := by
  obtain ⟨t, ht⟩ := Option.isSome_iff_exists.1 ((isSome_rebaseTarget_iff hiv hle).2 h)
  rw [nextSlot_of_claimSlot (claimSlot_eq_rebaseTarget hiv hle ▸ ht), ht]

/-- The claim of a row that was due moves it behind the present. -/
theorem lt_nextSlot_of_fits {now : Int64} {r : CommandSchedule} (hiv : 0 < r.intervalSec.toInt)
    (hle : r.windowStartUnixMs ≤ now) (h : SlotFits now r) :
    now < nextSlot r.windowStartUnixMs (r.intervalSec * 1000) now :=
  rebaseTarget_gt hiv hle (rebaseTarget_eq_nextSlot hiv hle h)

/-! ## Admitted schedules -/

/-- The create handler stores a schedule with its window and interval; the slot and the flag are any. -/
def Admitted (r : CommandSchedule) : Prop :=
  ∃ lib w text s, .createCommandSchedule s ∈ (Http.createScheduleHandler lib w text).effects ∧
    r.windowStartUnixMs = s.windowStartUnixMs ∧ r.windowEndUnixMs = s.windowEndUnixMs ∧ r.intervalSec = s.intervalSec

theorem admitted_iff {r : CommandSchedule} :
    Admitted r ↔ 60 ≤ r.intervalSec.toInt ∧ r.windowStartUnixMs < r.windowEndUnixMs := by
  have hmin : Http.kMinIntervalSec ≤ r.intervalSec ↔ 60 ≤ r.intervalSec.toInt := by
    rw [Int64.le_iff_toInt_le]
    rfl
  constructor
  · rintro ⟨lib, w, text, s, hs, hws, hwe, hiv⟩
    have hstored := Http.stored_of_mem_effects hs
    rw [← hmin, hws, hwe, hiv]
    exact ⟨hstored.interval, hstored.window⟩
  · rintro ⟨hiv, hwindow⟩
    let lib : JsonLib :=
      ⟨fun _ => .ok (Http.scheduleBody r.windowStartUnixMs r.windowEndUnixMs r.intervalSec), fun _ => .ok ""⟩
    exact ⟨lib, { Http.emptyWorld with now := r.windowEndUnixMs }, "", _,
      Http.mem_effects_scheduleBody rfl rfl (hmin.2 hiv) hwindow (Int64.le_refl _), rfl, rfl, rfl⟩

/-- The `WHERE` clause of `ListDueCommandSchedules`. -/
def isDue (now : Int64) (r : CommandSchedule) : Bool :=
  r.enabled && decide (r.windowStartUnixMs ≤ now) && decide (now ≤ r.windowEndUnixMs) &&
    decide (now - kToleranceMs ≤ r.nextRunUnixMs) && decide (r.nextRunUnixMs ≤ now + kToleranceMs)

theorem isDue_of_mem_list {now : Int64} {t : CommandSchedules} {r : CommandSchedule}
    (h : r ∈ listDueCommandSchedules now t) : r ∈ t.rows ∧ isDue now r = true := by
  have hmem := (List.mem_insertionSort _).1 (List.mem_of_mem_take h)
  exact List.mem_filter.1 hmem

theorem windowStart_le_of_due {now : Int64} {r : CommandSchedule} (h : isDue now r = true) :
    r.windowStartUnixMs ≤ now := by
  simp only [isDue, Bool.and_eq_true, decide_eq_true_eq] at h
  exact h.1.1.1.2

theorem windowStart_le_of_stale {ns : Int64} {r : CommandSchedule} (h : isStale (nowMs ns) r = true) :
    r.windowStartUnixMs ≤ nowMs ns := by
  simp only [isStale, Bool.and_eq_true, decide_eq_true_eq] at h
  have hstart := h.1.1.2
  rw [Int64.le_iff_toInt_le, (toInt_tolerance ns).1] at hstart
  rw [Int64.le_iff_toInt_le]
  omega

/-- Nothing that a tick computes of a row overflows: the bounds of the statements, the slot of a claim when the row is
due, and that of the re-basing when it is stale. -/
structure NoOverflow (now : Int64) (r : CommandSchedule) : Prop where
  earliest : (bigint (now.toInt - kToleranceMs.toInt)).isSome
  latest : (bigint (now.toInt + kToleranceMs.toInt)).isSome
  claim : isDue now r = true → (claimSlot now r).isSome
  rebase : isStale now r = true → (rebaseTarget now r).isSome

/-- The re-basing moves every stale row behind the present. -/
def RebasesAll (now : Int64) (t : CommandSchedules) : Prop :=
  ∀ r ∈ t.rows, isStale now r = true → ∃ r' ∈ (rescheduleStaleSchedules now t).rows, r'.id = r.id ∧
    now < r'.nextRunUnixMs

/-! ## The re-basing of a table -/

section

variable {now : Int64} {t : CommandSchedules} {r : CommandSchedule}

theorem isSome_rebaseRow_iff : (rebaseRow now r).isSome ↔ (isStale now r = true → (rebaseTarget now r).isSome) := by
  unfold rebaseRow
  split <;> simp_all

theorem rebaseRow_of_stale (hstale : isStale now r = true) {slot : Int64} (h : rebaseTarget now r = some slot) :
    rebaseRow now r = some { r with nextRunUnixMs := slot } := by
  rw [rebaseRow, if_pos hstale, h]
  rfl

theorem rebaseRow_of_not_stale (hstale : ¬isStale now r = true) : rebaseRow now r = some r := if_neg hstale

section

variable {ns : Int64} (hiv : 0 < r.intervalSec.toInt)

include hiv

/-- A row has its value when its slot fits, should it be stale. -/
theorem isSome_rebaseRow_of_fits (h : isStale (nowMs ns) r = true → SlotFits (nowMs ns) r) :
    (rebaseRow (nowMs ns) r).isSome := by
  apply isSome_rebaseRow_iff.2
  intro hstale
  exact (isSome_rebaseTarget_iff hiv (windowStart_le_of_stale hstale)).2 (h hstale)

/-- A stale row whose slot fits is moved behind the present. -/
theorem rebaseRow_of_fits (hstale : isStale (nowMs ns) r = true) (h : SlotFits (nowMs ns) r) :
    ∃ slot, nowMs ns < slot ∧ rebaseRow (nowMs ns) r = some { r with nextRunUnixMs := slot } := by
  have hle := windowStart_le_of_stale hstale
  exact ⟨_, lt_nextSlot_of_fits hiv hle h, rebaseRow_of_stale hstale (rebaseTarget_eq_nextSlot hiv hle h)⟩

end

/-- All rows are written when each of them has its value. -/
theorem reschedule_rows (h : ∀ r ∈ t.rows, (rebaseRow now r).isSome) :
    (rescheduleStaleSchedules now t).rows = t.rows.map fun r => (rebaseRow now r).getD r := by
  unfold rescheduleStaleSchedules
  rw [if_pos (List.all_eq_true.2 h)]
  rfl

/-- One row without a value leaves all rows as they are. -/
theorem reschedule_blocked (hr : r ∈ t.rows) (h : rebaseRow now r = none) : rescheduleStaleSchedules now t = t := by
  unfold rescheduleStaleSchedules
  refine if_neg fun hall => ?_
  have := List.all_eq_true.1 hall r hr
  rw [h] at this
  cases this

theorem rebasesAll_iff {ns : Int64} (ht : ∀ r ∈ t.rows, 0 < r.intervalSec.toInt) :
    RebasesAll (nowMs ns) t ↔ ∀ r ∈ t.rows, isStale (nowMs ns) r = true → SlotFits (nowMs ns) r := by
  constructor
  · intro h r hr hstale
    by_contra hfit
    have hnone : rebaseTarget (nowMs ns) r = none := by
      rw [← Option.not_isSome_iff_eq_none, isSome_rebaseTarget_iff (ht r hr) (windowStart_le_of_stale hstale)]
      exact hfit
    have hrow : rebaseRow (nowMs ns) r = none := by
      rw [rebaseRow, if_pos hstale, hnone]
      rfl
    -- the row stands where it stood, in front of the present
    obtain ⟨r', hr', hid, hlt⟩ := h r hr hstale
    rw [reschedule_blocked hr hrow] at hr'
    rw [t.eq_of_key hr' hr hid] at hlt
    simp only [isStale, Bool.and_eq_true, decide_eq_true_eq] at hstale
    have hnext := hstale.2
    rw [Int64.lt_iff_toInt_lt, (toInt_tolerance ns).1] at hnext
    rw [Int64.lt_iff_toInt_lt] at hlt
    omega
  · intro h r hr hstale
    obtain ⟨slot, hlt, hrow⟩ := rebaseRow_of_fits (ht r hr) hstale (h r hr hstale)
    rw [reschedule_rows fun r hr => isSome_rebaseRow_of_fits (ht r hr) (h r hr)]
    refine ⟨_, List.mem_map_of_mem hr, rebaseRow_id .., ?_⟩
    rw [hrow]
    exact hlt

theorem noOverflow_iff {ns : Int64} (hiv : 0 < r.intervalSec.toInt) :
    NoOverflow (nowMs ns) r ↔ (isDue (nowMs ns) r = true ∨ isStale (nowMs ns) r = true → SlotFits (nowMs ns) r) := by
  constructor
  · rintro h (hdue | hstale)
    · have hle := windowStart_le_of_due hdue
      rw [← isSome_rebaseTarget_iff hiv hle, ← claimSlot_eq_rebaseTarget hiv hle]
      exact h.claim hdue
    · exact (isSome_rebaseTarget_iff hiv (windowStart_le_of_stale hstale)).1 (h.rebase hstale)
  · intro h
    have hnow := nowMs_bounds ns
    have htolerance : kToleranceMs.toInt = 2000 := rfl
    refine ⟨isSome_bigint_iff.2 (by omega), isSome_bigint_iff.2 (by omega), fun hdue => ?_, fun hstale => ?_⟩
    · have hle := windowStart_le_of_due hdue
      rw [claimSlot_eq_rebaseTarget hiv hle, isSome_rebaseTarget_iff hiv hle]
      exact h (.inl hdue)
    · exact (isSome_rebaseTarget_iff hiv (windowStart_le_of_stale hstale)).2 (h (.inr hstale))

end

/-- **Overflow.** At a tick nothing overflows of a table of admitted schedules exactly when the slots of the rows that
are due or stale fit; and all stale rows are re-based exactly when the slots of all of them fit. -/
theorem overflow_free_iff (t : CommandSchedules) (ns : Int64) (ht : ∀ r ∈ t.rows, Admitted r) :
    ((∀ r ∈ t.rows, NoOverflow (nowMs ns) r) ↔
        ∀ r ∈ t.rows, isDue (nowMs ns) r = true ∨ isStale (nowMs ns) r = true → SlotFits (nowMs ns) r) ∧
      (RebasesAll (nowMs ns) t ↔ ∀ r ∈ t.rows, isStale (nowMs ns) r = true → SlotFits (nowMs ns) r) := by
  have hpos : ∀ r ∈ t.rows, 0 < r.intervalSec.toInt := fun r hr => by
    have := (admitted_iff.1 (ht r hr)).1
    omega
  exact ⟨forall₂_congr fun r hr => noOverflow_iff (hpos r hr), rebasesAll_iff hpos⟩

theorem slotFits_everyMinute : SlotFits (nowMs 63000000000) everyMinute := ⟨by decide, by decide, by decide⟩

/-- A schedule of every minute, three seconds late: nothing overflows, and it is re-based. -/
theorem overflow_free_everyMinute :
    (∀ r ∈ oneSchedule.rows, NoOverflow (nowMs 63000000000) r) ∧ RebasesAll (nowMs 63000000000) oneSchedule := by
  have hadmitted : ∀ r ∈ oneSchedule.rows, Admitted r :=
    List.forall_mem_singleton.2 (admitted_iff.2 ⟨by decide, by decide⟩)
  obtain ⟨hrows, htable⟩ := overflow_free_iff oneSchedule 63000000000 hadmitted
  exact ⟨hrows.2 (List.forall_mem_singleton.2 fun _ => slotFits_everyMinute),
    htable.2 (List.forall_mem_singleton.2 fun _ => slotFits_everyMinute)⟩

/-- A schedule of the first hour, as it is stored at time zero. -/
def firstHour (id : String) (intervalSec : Int64) : CommandSchedule :=
  Http.storedSchedule { Http.emptyWorld with newScheduleId := id } 0 3600000 intervalSec

theorem created_firstHour (id : String) {intervalSec : Int64} (h : Http.kMinIntervalSec ≤ intervalSec) :
    ∃ lib hw text, .createCommandSchedule (firstHour id intervalSec) ∈
      (Http.createScheduleHandler lib hw text).effects :=
  ⟨⟨fun _ => .ok (Http.scheduleBody 0 3600000 intervalSec), fun _ => .ok ""⟩,
    { Http.emptyWorld with newScheduleId := id }, "", Http.mem_effects_scheduleBody rfl rfl h (by decide)
      (show (0 : Int64) ≤ 3600000 by decide)⟩

/-- A schedule of every minute, and one whose interval in milliseconds is no `int64_t`. -/
def withHugeInterval : CommandSchedules := ⟨[firstHour "cs_1" 60, firstHour "cs_2" 4611686018427387904], by decide⟩

/-- A minute after the first slot both rows are stale: the re-basing overflows, and moves neither. -/
theorem huge_interval_blocks_rebasing :
    (∀ r ∈ withHugeInterval.rows, Admitted r) ∧
      ¬(∀ r ∈ withHugeInterval.rows, NoOverflow (nowMs 60000000000) r) ∧
      (∃ r ∈ withHugeInterval.rows, r.id = "cs_1" ∧ isStale (nowMs 60000000000) r = true ∧
        rebaseTarget (nowMs 60000000000) r = some 120000) ∧
      rescheduleStaleSchedules (nowMs 60000000000) withHugeInterval = withHugeInterval := by
  have hrow : ∃ r ∈ withHugeInterval.rows, isStale (nowMs 60000000000) r = true ∧
      rebaseTarget (nowMs 60000000000) r = none := by decide
  obtain ⟨r, hr, hstale, hnone⟩ := hrow
  refine ⟨?_, fun h => ?_, by decide, reschedule_blocked hr ?_⟩
  · have hbounds : ∀ r ∈ withHugeInterval.rows,
        60 ≤ r.intervalSec.toInt ∧ r.windowStartUnixMs < r.windowEndUnixMs := by decide
    exact fun r hr => admitted_iff.2 (hbounds r hr)
  · have := (h r hr).rebase hstale
    rw [hnone] at this
    cases this
  · rw [rebaseRow, if_pos hstale, hnone]
    rfl

/-! ## Runs without overflow -/

/-- A pending due row was listed behind its window start, and has the window start of its table row. -/
def DueOk (t : CommandSchedules) (now : Int64) (d : CommandSchedule) : Prop :=
  0 < d.intervalSec.toInt ∧ d.windowStartUnixMs ≤ now ∧
    ∀ r ∈ t.rows, r.id = d.id → r.windowStartUnixMs = d.windowStartUnixMs

/-- A table row has a positive interval and is not in front of its window. -/
def RowOk (r : CommandSchedule) : Prop := 0 < r.intervalSec.toInt ∧ r.windowStartUnixMs ≤ r.nextRunUnixMs

structure SlotInv (w : World) : Prop where
  rows : ∀ r ∈ w.table.rows, RowOk r
  due : ∀ i now due, (w.schedulers i).pc = .claiming now due → ∀ d ∈ due, DueOk w.table now d

/-- The step computes no slot that does not fit; a created schedule comes from the create handler, under an id that no
pending due row has. -/
def MeetsFits (w : World) : Event → Prop
  | .tick _ ns true => ∀ r ∈ w.table.rows, isStale (nowMs ns) r = true → SlotFits (nowMs ns) r
  | .claim i _ => ∀ now sched rest, (w.schedulers i).pc = .claiming now (sched :: rest) → SlotFits now sched
  | .create s => (∃ lib hw text, .createCommandSchedule s ∈ (Http.createScheduleHandler lib hw text).effects) ∧
      ∀ i now due, (w.schedulers i).pc = .claiming now due → ∀ d ∈ due, d.id ≠ s.id
  | _ => True

variable {w w' : World}

/-- An instance changes. -/
theorem slotInv_set {i : Nat} {s : CommandScheduler} (h : SlotInv w)
    (hs : ∀ now due, s.pc = .claiming now due → ∀ d ∈ due, DueOk w.table now d) : SlotInv (w.set i s) := by
  refine ⟨h.rows, fun j now due hpc => ?_⟩
  rw [set_schedulers] at hpc
  split at hpc
  · exact hs now due hpc
  · exact h.due j now due hpc

/-- The table changes, to rows whose windows were there before. -/
theorem slotInv_table {t : CommandSchedules} (h : SlotInv w)
    (ht : ∀ r ∈ t.rows, RowOk r ∧ ∃ r₀ ∈ w.table.rows, r₀.id = r.id ∧ r₀.windowStartUnixMs = r.windowStartUnixMs) :
    SlotInv { w with table := t } := by
  refine ⟨fun r hr => (ht r hr).1, fun i now due hpc d hd => ?_⟩
  obtain ⟨hiv, hle, hstart⟩ := h.due i now due hpc d hd
  refine ⟨hiv, hle, fun r hr hid => ?_⟩
  obtain ⟨r₀, hr₀, hid₀, hstart₀⟩ := (ht r hr).2
  rw [← hstart₀]
  exact hstart r₀ hr₀ (hid₀.trans hid)

theorem rowOk_create {lib : JsonLib} {hw : Http.World} {text : String} {s : CommandSchedule}
    (h : .createCommandSchedule s ∈ (Http.createScheduleHandler lib hw text).effects) : RowOk s := by
  have hstored := Http.stored_of_mem_effects h
  have hmin : Http.kMinIntervalSec.toInt = 60 := rfl
  have hiv := hstored.interval
  rw [Int64.le_iff_toInt_le, hmin] at hiv
  refine ⟨by omega, ?_⟩
  rw [hstored.next]
  split
  · exact Int64.le_refl _
  · exact Int64.not_lt.1 ‹_›

/-- The compare-and-set of a claim moves rows of the due row's window only. -/
theorem slotInv_advance {d : CommandSchedule} {now : Int64} (h : SlotInv w) (hd : DueOk w.table now d)
    (hfit : SlotFits now d) :
    SlotInv { w with table := (advanceCommandScheduleNextRun d.id d.nextRunUnixMs
      (nextSlot d.windowStartUnixMs (d.intervalSec * 1000) now) w.table).2 } := by
  obtain ⟨hiv, hle, hstart⟩ := hd
  apply slotInv_table h
  intro r' hr'
  obtain ⟨r, hr, rfl⟩ := List.mem_map.1 hr'
  have hrow := h.rows r hr
  unfold advanceRow
  split
  · rename_i hexp
    simp only [isExpected, Bool.and_eq_true, decide_eq_true_eq] at hexp
    refine ⟨⟨hrow.1, ?_⟩, r, hr, rfl, rfl⟩
    calc r.windowStartUnixMs = d.windowStartUnixMs := hstart r hr hexp.1.1
      _ ≤ now := hle
      _ ≤ nextSlot d.windowStartUnixMs (d.intervalSec * 1000) now := le_of_lt (lt_nextSlot_of_fits hiv hle hfit)
  · exact ⟨hrow, r, hr, rfl, rfl⟩

theorem slotInv_enqueue {i : Nat} {s : CommandScheduler} {sched : CommandSchedule} (h : SlotInv w)
    (hs : ∀ now due, s.pc = .claiming now due → ∀ d ∈ due, DueOk w.table now d) : SlotInv (enqueue w i s sched) := by
  unfold enqueue
  split
  · exact slotInv_set h fun now due hpc => absurd hpc (by simp)
  · split
    · exact slotInv_set h hs
    · have hset := slotInv_set (i := i)
        (s := { s with queue := s.queue ++ [sched], busyAgents := sched.agentId :: s.busyAgents }) h hs
      exact ⟨hset.rows, hset.due⟩

theorem slotInv_claimRow {i : Nat} {now : Int64} {sched : CommandSchedule} {rest : List CommandSchedule}
    (h : SlotInv w) (hpc : (w.schedulers i).pc = .claiming now (sched :: rest)) (hfit : SlotFits now sched)
    (outcome : ClaimOutcome) : SlotInv (claimRow w i now sched rest outcome) := by
  have hadvance := slotInv_advance h (h.due i now _ hpc sched List.mem_cons_self) hfit
  have hrest : ∀ {w' : World}, w'.schedulers = w.schedulers → SlotInv w' → ∀ now' due,
      ({ w.schedulers i with pc := LoopPc.claiming now rest } : CommandScheduler).pc = .claiming now' due →
      ∀ d ∈ due, DueOk w'.table now' d := by
    intro w' hsame h' now' due hc d hd
    cases hc
    exact h'.due i now _ (hsame ▸ hpc) d (List.mem_cons_of_mem _ hd)
  cases outcome with
  | refused => exact slotInv_set h (hrest rfl h)
  | lostReply => exact slotInv_set hadvance (hrest rfl hadvance)
  | done =>
    simp only [claimRow]
    split
    · have hclaimed : SlotInv { w with
          table := (advanceCommandScheduleNextRun sched.id sched.nextRunUnixMs
            (nextSlot sched.windowStartUnixMs (sched.intervalSec * 1000) now) w.table).2
          claimed := w.claimed ++ [(sched.id, sched.nextRunUnixMs)] } := ⟨hadvance.rows, hadvance.due⟩
      exact slotInv_enqueue hclaimed (hrest rfl hclaimed)
    · exact slotInv_set hadvance (hrest rfl hadvance)

section

variable {t : CommandSchedules} {ns : Int64} (hrows : ∀ r ∈ t.rows, RowOk r)
  (hfits : ∀ r ∈ t.rows, isStale (nowMs ns) r = true → SlotFits (nowMs ns) r)

include hrows hfits

/-- A row after the re-basing: it was not stale, or it stands at the next slot. -/
theorem mem_reschedule {r' : CommandSchedule} (h : r' ∈ (rescheduleStaleSchedules (nowMs ns) t).rows) :
    ∃ r ∈ t.rows, (¬isStale (nowMs ns) r = true ∧ r' = r) ∨
      ∃ slot, nowMs ns < slot ∧ isStale (nowMs ns) r = true ∧ r' = { r with nextRunUnixMs := slot } := by
  rw [reschedule_rows fun r hr => isSome_rebaseRow_of_fits (hrows r hr).1 (hfits r hr)] at h
  obtain ⟨r, hr, rfl⟩ := List.mem_map.1 h
  refine ⟨r, hr, ?_⟩
  by_cases hstale : isStale (nowMs ns) r = true
  · obtain ⟨slot, hlt, hrow⟩ := rebaseRow_of_fits (hrows r hr).1 hstale (hfits r hr hstale)
    rw [hrow]
    exact .inr ⟨slot, hlt, hstale, rfl⟩
  · rw [rebaseRow_of_not_stale hstale]
    exact .inl ⟨hstale, rfl⟩

/-- **Re-basing.** After it the enabled rows in their windows are at most the tolerance late. -/
theorem tolerance_of_mem_reschedule {r : CommandSchedule} (h : r ∈ (rescheduleStaleSchedules (nowMs ns) t).rows)
    (henabled : r.enabled = true) (hstart : r.windowStartUnixMs ≤ nowMs ns) (hend : nowMs ns ≤ r.windowEndUnixMs) :
    (nowMs ns).toInt - 2000 ≤ r.nextRunUnixMs.toInt := by
  obtain ⟨hsub, -⟩ := toInt_tolerance ns
  obtain ⟨r₀, hr₀, ⟨hstale, rfl⟩ | ⟨slot, hlt, -, rfl⟩⟩ := mem_reschedule hrows hfits h
  · by_contra hlate
    have hrow := (hrows r hr₀).2
    rw [Int64.le_iff_toInt_le] at hrow
    -- a late row was late behind its window start, so it was stale
    apply hstale
    simp only [isStale, Bool.and_eq_true, decide_eq_true_eq, Int64.le_iff_toInt_le, Int64.lt_iff_toInt_lt, hsub]
    rw [Int64.le_iff_toInt_le] at hend
    exact ⟨⟨⟨henabled, by omega⟩, hend⟩, by omega⟩
  · rw [Int64.lt_iff_toInt_lt] at hlt
    dsimp only
    omega

end

/-- The re-basing keeps the rows behind their windows. -/
theorem slotInv_reschedule {ns : Int64} (h : SlotInv w)
    (hfits : ∀ r ∈ w.table.rows, isStale (nowMs ns) r = true → SlotFits (nowMs ns) r) :
    SlotInv { w with table := rescheduleStaleSchedules (nowMs ns) w.table } := by
  apply slotInv_table h
  intro r' hr'
  obtain ⟨r, hr, ⟨-, rfl⟩ | ⟨slot, hlt, hstale, rfl⟩⟩ := mem_reschedule h.rows hfits hr'
  · exact ⟨h.rows r' hr, r', hr, rfl, rfl⟩
  · exact ⟨⟨(h.rows r hr).1, (windowStart_le_of_stale hstale).trans (le_of_lt hlt)⟩, r, hr, rfl, rfl⟩

/-- **Invariant.** Every step without overflow keeps it. -/
theorem slotInv_step : ∀ (w : World) (e : Event) (w' : World), SlotInv w → MeetsFits w e → step w e = some w' →
    SlotInv w'
  | w, .tick i ns ok, w', h, hg, hs => by
    simp only [step] at hs
    split at hs
    · cases hs
      have hset := slotInv_set (s := { w.schedulers i with pc := .rebased (nowMs ns) }) (i := i) h
        fun now due hpc => absurd hpc (by simp)
      cases ok with
      | false => exact ⟨hset.rows, hset.due⟩
      | true => exact slotInv_reschedule hset hg
    · cases hs
  | w, .list i ok, w', h, _, hs => by
    simp only [step] at hs
    split at hs
    · rename_i now hpc
      cases hs
      refine slotInv_set h fun now' due hc d hd => ?_
      cases hc
      split at hd
      · obtain ⟨hmem, hdue⟩ := isDue_of_mem_list hd
        refine ⟨(h.rows d hmem).1, windowStart_le_of_due hdue, fun r hr hid => ?_⟩
        rw [w.table.eq_of_key hr hmem hid]
      · cases hd
    · cases hs
  | w, .claim i outcome, w', h, hg, hs => by
    simp only [step] at hs
    split at hs
    · rename_i now sched rest hpc
      cases hs
      exact slotInv_claimRow h hpc (hg now sched rest hpc) outcome
    · cases hs
  | w, .endTick i, w', h, _, hs => by
    simp only [step] at hs
    split at hs
    · cases hs
      exact slotInv_set h fun now due hpc => absurd hpc (by simp)
    · cases hs
  | w, .stop i, w', h, _, hs => by
    cases hs
    exact slotInv_set h (h.due i)
  | w, .start i, w', h, _, hs => by
    simp only [step] at hs
    split at hs
    · cases hs
      exact slotInv_set h fun now due hpc => absurd hpc (by simp)
    · cases hs
      exact slotInv_set h fun now due hpc => absurd hpc (by simp)
    · cases hs
  | w, .take i, w', h, _, hs => by
    simp only [step] at hs
    split at hs
    · cases hs
      exact slotInv_set h (h.due i)
    · cases hs
  | w, .finish i agentId, w', h, _, hs => by
    cases hs
    exact slotInv_set h (h.due i)
  | w, .create schedule, w', h, ⟨⟨_, _, _, hcreate⟩, hfresh⟩, hs => by
    simp only [step] at hs
    split at hs
    · cases hs
    · rename_i hid
      rw [not_or] at hid
      cases hs
      have hrows : (w.table.insert schedule).rows = w.table.rows ++ [schedule] := KeyedTable.insert_free hid.1
      constructor
      · simp only [hrows, List.forall_mem_append, List.forall_mem_singleton]
        exact ⟨h.rows, rowOk_create hcreate⟩
      · intro i now due hpc d hd
        obtain ⟨hiv, hle, hstart⟩ := h.due i now due hpc d hd
        refine ⟨hiv, hle, ?_⟩
        simp only [hrows, List.forall_mem_append, List.forall_mem_singleton]
        exact ⟨hstart, fun heq => absurd heq.symm (hfresh i now due hpc d hd)⟩
  | w, .setEnabled id enabled, w', h, _, hs => by
    cases hs
    apply slotInv_table h
    intro r' hr'
    obtain ⟨r, hr, rfl⟩ := List.mem_map.1 hr'
    have hrow := h.rows r hr
    unfold enableRow
    split <;> exact ⟨hrow, r, hr, rfl, rfl⟩
  | w, .delete id, w', h, _, hs => by
    cases hs
    apply slotInv_table h
    intro r hr
    have hmem := (List.mem_filter.1 hr).1
    exact ⟨h.rows r hmem, r, hmem, rfl, rfl⟩

/-- The rows that a re-basing leaves in their windows are at most the tolerance late. -/
def RebasedBehind (w : World) (e : Event) : Prop :=
  ∀ i ns w', e = .tick i ns true → step w e = some w' → ∀ r ∈ w'.table.rows, r.enabled = true →
    r.windowStartUnixMs ≤ nowMs ns → nowMs ns ≤ r.windowEndUnixMs →
    (nowMs ns).toInt - 2000 ≤ r.nextRunUnixMs.toInt

theorem rebasedBehind_of_fits (w : World) (e : Event) (w' : World) (h : SlotInv w) (hg : MeetsFits w e)
    (_ : step w e = some w') : RebasedBehind w e := by
  rintro i ns w' rfl hs r hr henabled hstart hend
  simp only [step] at hs
  split at hs
  · cases hs
    exact tolerance_of_mem_reschedule h.rows hg hr henabled hstart hend
  · cases hs

def noSchedules : CommandSchedules := KeyedTable.empty

theorem slotInv_start : SlotInv { table := noSchedules } := ⟨nofun, fun _ _ _ hpc => nomatch hpc⟩

/-- **Slots.** Without overflow the next slot is the least one behind the time and the one of the re-basing; and in
every run without overflow the rows stand behind their window starts, and behind the tolerance after a re-basing. -/
theorem slots_agree (run : List Event) (h : Guarded step MeetsFits { table := noSchedules } run) :
    (∀ ws iv now : Int64, ws ≤ now → 0 < iv.toInt → Fits ws.toInt iv.toInt now.toInt →
      IsLeast {t : Int | (∃ k : Int, t = ws.toInt + k * iv.toInt) ∧ now.toInt < t} (nextSlot ws iv now).toInt) ∧
    (∀ (r : CommandSchedule) (now : Int64), r.windowStartUnixMs ≤ now → 0 < r.intervalSec.toInt → SlotFits now r →
      rebaseTarget now r = some (nextSlot r.windowStartUnixMs (r.intervalSec * 1000) now)) ∧
    Always step (fun w => ∀ r ∈ w.table.rows, r.windowStartUnixMs ≤ r.nextRunUnixMs) { table := noSchedules } run ∧
    Guarded step RebasedBehind { table := noSchedules } run :=
  ⟨fun _ _ _ hle hiv hfits => nextSlot_isLeast_of_fits hiv hle hfits,
    fun _ _ hle hiv hfits => rebaseTarget_eq_nextSlot hiv hle hfits,
    always_of_guarded slotInv_step (fun _ hi r hr => (hi.rows r hr).2) slotInv_start h,
    guarded_of_guarded slotInv_step rebasedBehind_of_fits slotInv_start h⟩

/-- A schedule that was late by a minute is re-based to its second slot, and claimed there. -/
theorem slots_agree_late :
    let run : List Event := [.create (firstHour "cs_1" 60), .tick 0 63000000000 true, .list 0 true, .endTick 0,
      .tick 0 120000000000 true, .list 0 true, .claim 0 .done]
    (runEvents step { table := noSchedules } run).map (fun w => w.table.rows.map CommandSchedule.nextRunUnixMs) =
        some [180000] ∧
      Always step (fun w => ∀ r ∈ w.table.rows, r.windowStartUnixMs ≤ r.nextRunUnixMs) { table := noSchedules } run ∧
      Guarded step RebasedBehind { table := noSchedules } run := by
  intro run
  have hmeets : Guarded step MeetsFits { table := noSchedules } run := by
    refine .cons rfl ⟨created_firstHour _ (by decide), nofun⟩ (.cons rfl ?_ (.cons rfl trivial (.cons rfl trivial
      (.cons rfl ?_ (.cons rfl trivial (.cons rfl ?_ trivial))))))
    · exact List.forall_mem_singleton.2 fun _ => ⟨by decide, by decide, by decide⟩
    · exact List.forall_mem_singleton.2 fun _ => ⟨by decide, by decide, by decide⟩
    · intro now sched rest hpc
      cases hpc
      exact ⟨by decide, by decide, by decide⟩
  obtain ⟨-, -, hrows, hrebased⟩ := slots_agree run hmeets
  exact ⟨by decide, hrows, hrebased⟩

/-- With a second schedule whose interval in milliseconds is no `int64_t`, the re-basing leaves the first one where it
stood. -/
theorem huge_interval_keeps_late_row :
    let created := [firstHour "cs_1" 60, firstHour "cs_2" 4611686018427387904]
    (∀ s ∈ created, ∃ lib hw text, .createCommandSchedule s ∈ (Http.createScheduleHandler lib hw text).effects) ∧
      ¬Guarded step RebasedBehind { table := noSchedules } (created.map .create ++ [.tick 0 63000000000 true]) := by
  intro created
  refine ⟨List.forall_mem_cons.2 ⟨created_firstHour _ (by decide),
    List.forall_mem_singleton.2 (created_firstHour _ (by decide))⟩, fun h => ?_⟩
  obtain ⟨-, h⟩ := h _ rfl
  obtain ⟨-, h⟩ := h _ rfl
  obtain ⟨hbehind, -⟩ := h _ rfl
  have hlate := hbehind 0 63000000000 _ rfl rfl (firstHour "cs_1" 60) (by decide) rfl (by decide) (by decide)
  exact absurd hlate (by decide)

end PudimNetMon.Collector
