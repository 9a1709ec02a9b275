import PudimNetMon.Collector.BusyAgents

/-!
# Slots that are moved on unclaimed (`command_scheduler.cpp`, `timescale_storage.cpp`)

A tick lists at most 20 due rows, the earliest slot first, and re-bases the rows whose slot is more than two seconds
old. Ticks come at most a second apart, so a row is still listed when its slot is between one and two seconds old; of
more than 20 such rows some are left for the next tick, which re-bases them.

- `mem_due_of_late`: the rows whose slot is more than a second old are listed as long as there are at most 20;
- `slots_moved_claimed`: as long as each tick finds at most 20 of them, no slot is moved on unclaimed.
-/

namespace PudimNetMon.Collector.Threads

open Storage

/-! ## Rows whose slot is more than a second old -/

/-- The row is enabled and in its window, and its slot is more than a second old. -/
def Late (t : Int64) (r : CommandSchedule) : Prop :=
  r.enabled = true ∧ r.windowStartUnixMs ≤ t ∧ t ≤ r.windowEndUnixMs ∧ r.nextRunUnixMs.toInt < t.toInt - 1000

instance (t : Int64) (r : CommandSchedule) : Decidable (Late t r) := inferInstanceAs (Decidable (_ ∧ _))

/-- Times of ordinary size, and no slot before the window. -/
def Ordinary (r : CommandSchedule) : Prop := InRange r ∧ r.windowStartUnixMs ≤ r.nextRunUnixMs

instance (r : CommandSchedule) : Decidable (Ordinary r) := inferInstanceAs (Decidable ((_ ∧ _) ∧ _))

/-- Elements that come first are among the first `n` when there are at most `n` of them. -/
theorem mem_take_of_countP_le {α : Type} {P : α → Bool} {l : List α} {n : Nat} {a : α}
    (hmono : l.Pairwise fun x y => P y = true → P x = true) (hcount : l.countP P ≤ n) (ha : a ∈ l)
    (hP : P a = true) : a ∈ l.take n := by
  rw [← List.take_append_drop n l] at hmono ha hcount
  rcases List.mem_append.1 ha with htake | hdrop
  · exact htake
  · -- all of the first `n` come before it, and there are `n` of them
    have hfirst : ∀ x ∈ l.take n, P x = true := fun x hx => (List.pairwise_append.1 hmono).2.2 x hx a hdrop hP
    have hlength : (l.take n).length = n := by
      rw [List.length_take, Nat.min_eq_left]
      have := List.length_pos_of_mem hdrop
      rw [List.length_drop] at this
      omega
    have hrest : 0 < (l.drop n).countP P := List.countP_pos_iff.2 ⟨a, hdrop, hP⟩
    rw [List.countP_append, List.countP_eq_length.2 hfirst] at hcount
    omega

/-- A row that was not stale for the re-basing is due when it is late, and listed if not too many rows are late. -/
theorem mem_due_of_late {ns : Int64} {t : CommandSchedules} {r : CommandSchedule} (hr : r ∈ t.rows)
    (hlate : Late (nowMs ns) r) (hold : (nowMs ns).toInt - 2000 ≤ r.nextRunUnixMs.toInt)
    (hcount : (t.rows.filter fun r => Late (nowMs ns) r).length ≤ 20) : r ∈ listDueCommandSchedules (nowMs ns) t := by
  obtain ⟨hsub, hadd⟩ := toInt_tolerance ns
  unfold listDueCommandSchedules
  apply mem_take_of_countP_le (P := fun r => Late (nowMs ns) r)
  · -- earlier rows of the list are late, too
    have hsorted := List.pairwise_insertionSort (fun r s : CommandSchedule => r.nextRunUnixMs ≤ s.nextRunUnixMs)
      (t.rows.filter fun r => r.enabled && decide (r.windowStartUnixMs ≤ nowMs ns) &&
        decide (nowMs ns ≤ r.windowEndUnixMs) && decide (nowMs ns - kToleranceMs ≤ r.nextRunUnixMs) &&
        decide (r.nextRunUnixMs ≤ nowMs ns + kToleranceMs))
    refine hsorted.imp_of_mem fun {x y} hx _ hle hy => ?_
    rw [List.mem_insertionSort] at hx
    have hdue := (List.mem_filter.1 hx).2
    simp only [Bool.and_eq_true, decide_eq_true_eq] at hdue
    rw [decide_eq_true_eq] at hy ⊢
    rw [Int64.le_iff_toInt_le] at hle
    exact ⟨hdue.1.1.1.1, hdue.1.1.1.2, hdue.1.1.2, Int.lt_of_le_of_lt hle hy.2.2.2⟩
  · rw [(List.perm_insertionSort _ _).countP_eq]
    refine Nat.le_trans ?_ hcount
    rw [← List.countP_eq_length_filter]
    exact List.filter_sublist.countP_le
  · rw [List.mem_insertionSort, List.mem_filter]
    obtain ⟨henabled, hstart, hend, hnext⟩ := hlate
    refine ⟨hr, ?_⟩
    simp only [Bool.and_eq_true, decide_eq_true_eq]
    refine ⟨⟨⟨⟨henabled, hstart⟩, hend⟩, ?_⟩, ?_⟩
    · rw [Int64.le_iff_toInt_le, hsub]
      exact hold
    · rw [Int64.le_iff_toInt_le, hadd]
      omega
  · simpa using hlate

/-! ## The condition and the invariant -/

variable {s s' : State}

/-- The row a claim is about, with the time of its tick. -/
def LoopAt.next : LoopAt → Option (Int64 × CommandSchedule)
  | .claiming now (sched :: _) => some (now, sched)
  | _ => none

/-- The late rows at the list of a tick. -/
def State.late (s : State) : List CommandSchedule :=
  match s.loop with
  | .rebased now => s.table.rows.filter fun r => Late now r
  | _ => []

/-- Ticks at most a second apart, the first one without stale rows; at most 20 late rows at a list, none of them lost by
a statement that fails; no schedule that comes new or enabled with a slot more than a second old. -/
def KeepsUpAt (s : State) : Event → Prop
  | .rebase ns _ =>
    match s.lastTick with
    | some t => (nowMs ns).toInt ≤ t.toInt + 1000
    | none => ∀ r ∈ s.table.rows, isStale (nowMs ns) r = false
  | .list ok => s.late.length ≤ 20 ∧ (ok = true ∨ s.late = [])
  | .claim .refused => ∀ x ∈ s.loop.next, x.1.toInt - 1000 ≤ x.2.nextRunUnixMs.toInt
  | .create schedule => schedule.enabled = true → (nowMs s.clock).toInt - 1000 ≤ schedule.nextRunUnixMs.toInt
  | .setEnabled id true => ∀ r ∈ s.table.rows, r.id = id → (nowMs s.clock).toInt - 1000 ≤ r.nextRunUnixMs.toInt
  | _ => True

/-- The step keeps up, on a table of ordinary schedules. -/
def KeepsUp (s : State) (e : Event) : Prop := (∀ r ∈ s.table.rows, Ordinary r) ∧ KeepsUpAt s e

/-- A re-basing moves a slot on only after it was claimed, or while a run of its agent is queued or executing. -/
def MovesClaimed (s : State) (e : Event) : Prop :=
  ∀ ns, e = .rebase ns true → ∀ r ∈ s.table.rows, ∀ r' ∈ (rescheduleStaleSchedules (nowMs ns) s.table).rows,
    r'.id = r.id → r'.nextRunUnixMs = r.nextRunUnixMs ∨ (r.id, r.nextRunUnixMs) ∈ s.claimed ∨
      0 < s.admission.load r.agentId

/-- What the loop will do about a row that is late at the last tick. -/
def LoopAt.Sees (t : Int64) (r : CommandSchedule) : LoopAt → Prop
  | .waiting | .ticking => False
  | .rebased now => now = t ∧ t.toInt - 2000 ≤ r.nextRunUnixMs.toInt
  | .claiming now due | .claimed now _ due => now = t ∧ ∃ d ∈ due, d.id = r.id ∧ d.nextRunUnixMs = r.nextRunUnixMs
  | .absent | .returned => True

/-- The due rows of the tick. -/
def LoopAt.due : LoopAt → List CommandSchedule
  | .claiming _ due => due
  | .claimed _ sched due => sched :: due
  | _ => []

/-- The clock's time of the tick. -/
def LoopAt.now : LoopAt → Option Int64
  | .rebased now | .claiming now _ | .claimed now _ _ => some now
  | _ => none

structure KeptUp (s : State) : Prop where
  clock : ∀ t, s.lastTick = some t → t ≤ nowMs s.clock
  tick : ∀ now, s.loop.now = some now → s.lastTick = some now ∧ ∃ ns, now = nowMs ns
  due : ∀ d ∈ s.loop.due, InRange d
  sees : ∀ t, s.lastTick = some t → ∀ r ∈ s.table.rows, Late t r → s.loop.Sees t r

/-! ## One step -/

/-- No row is stale at a tick. -/
theorem KeptUp.not_stale (h : KeptUp s) (hl : s.loop = .ticking) {ns : Int64} {ok : Bool}
    (hg : KeepsUpAt s (.rebase ns ok)) (hns : s.clock ≤ ns) : ∀ r ∈ s.table.rows, isStale (nowMs ns) r = false := by
  unfold KeepsUpAt at hg
  dsimp only at hg
  split at hg
  · rename_i t ht
    intro r hr
    by_contra hstale
    rw [Bool.not_eq_false] at hstale
    simp only [isStale, Bool.and_eq_true, decide_eq_true_eq] at hstale
    obtain ⟨⟨⟨henabled, hstart⟩, hend⟩, hnext⟩ := hstale
    obtain ⟨hsub, -⟩ := toInt_tolerance ns
    rw [Int64.le_iff_toInt_le, hsub] at hstart
    rw [Int64.lt_iff_toInt_lt, hsub] at hnext
    have hclock := Int64.le_trans (h.clock t ht) (nowMs_mono hns)
    -- the row was late at the last tick already
    have hlate : Late t r := by
      refine ⟨henabled, ?_, Int64.le_trans hclock hend, ?_⟩
      · rw [Int64.le_iff_toInt_le]
        omega
      · omega
    have hsees := h.sees t ht r hr hlate
    rw [hl] at hsees
    exact hsees
  · exact hg

/-- Without stale rows a re-basing changes nothing. -/
theorem reschedule_rows {now : Int64} {t : CommandSchedules} (h : ∀ r ∈ t.rows, isStale now r = false) :
    rescheduleStaleSchedules now t = t := by
  unfold rescheduleStaleSchedules
  split
  · apply KeyedTable.ext
    refine (List.map_congr_left fun r hr => ?_).trans (List.map_id _)
    simp [rebaseRow, h r hr]
  · rfl

theorem KeptUp.rebase (h : KeptUp s) (hl : s.loop = .ticking) {ns : Int64} {ok : Bool}
    (hg : KeepsUp s (.rebase ns ok)) (hns : s.clock ≤ ns) :
    KeptUp { s with
      clock := ns, loop := .rebased (nowMs ns), lastTick := some (nowMs ns)
      table := if ok then rescheduleStaleSchedules (nowMs ns) s.table else s.table } := by
  have hstale := h.not_stale hl hg.2 hns
  have htable : (if ok then rescheduleStaleSchedules (nowMs ns) s.table else s.table) = s.table := by
    rw [reschedule_rows hstale]
    exact ite_self _
  refine ⟨fun t ht => ?_, fun now hnow => ?_, nofun, fun t ht r hr hlate => ?_⟩
  · cases ht
    exact Int64.le_refl _
  · cases hnow
    exact ⟨rfl, ns, rfl⟩
  · cases ht
    rw [htable] at hr
    refine ⟨rfl, ?_⟩
    obtain ⟨henabled, -, hend, -⟩ := hlate
    have hfresh := hstale r hr
    obtain ⟨hsub, -⟩ := toInt_tolerance ns
    have hfirst := (hg.1 r hr).2
    rw [Int64.le_iff_toInt_le] at hfirst
    -- a row that is not stale has a recent slot, or its window has just opened
    by_cases hstart : r.windowStartUnixMs ≤ nowMs ns - kToleranceMs
    · simp only [isStale, henabled, hstart, hend, decide_true, Bool.true_and, decide_eq_false_iff_not] at hfresh
      rw [Int64.lt_iff_toInt_lt, hsub] at hfresh
      omega
    · rw [Int64.le_iff_toInt_le, hsub] at hstart
      omega

theorem KeptUp.list (h : KeptUp s) {now : Int64} {ok : Bool} (hl : s.loop = .rebased now) (hg : KeepsUp s (.list ok)) :
    KeptUp { s with loop := .claiming now (if ok then listDueCommandSchedules now s.table else []) } := by
  obtain ⟨htick, ns, rfl⟩ := h.tick now (by rw [hl]; rfl)
  have hlist : s.late = s.table.rows.filter fun r => Late (nowMs ns) r := by rw [State.late, hl]
  obtain ⟨hcount, hok⟩ := hg.2
  rw [hlist] at hcount hok
  refine ⟨h.clock, fun now hnow => ?_, fun d hd => ?_, fun t ht r hr hlate => ?_⟩
  · cases hnow
    exact ⟨htick, ns, rfl⟩
  · have hmem : d ∈ listDueCommandSchedules (nowMs ns) s.table := by
      simp only [LoopAt.due] at hd
      split at hd
      · exact hd
      · cases hd
    have hsorted := List.mem_of_mem_take hmem
    rw [List.mem_insertionSort] at hsorted
    exact (hg.1 d (List.mem_filter.1 hsorted).1).1
  · cases htick.symm.trans ht
    have hsees := h.sees _ htick r hr hlate
    rw [hl] at hsees
    have hlater : r ∈ s.table.rows.filter fun r => Late (nowMs ns) r :=
      List.mem_filter.2 ⟨hr, by simpa using hlate⟩
    refine ⟨rfl, r, ?_, rfl, rfl⟩
    rcases hok with rfl | hnone
    · rw [if_pos rfl]
      exact mem_due_of_late hr hlate hsees.2 hcount
    · rw [hnone] at hlater
      cases hlater

/-- A row that is late behind a claim was late in front of it, and is not the claimed one. -/
theorem late_advance {now : Int64} {ns : Int64} {sched : CommandSchedule} {r : CommandSchedule} (hnow : now = nowMs ns)
    (hrange : InRange sched) (hr : r ∈ (advanceSchedule s now sched).2.rows) (hlate : Late now r) :
    r ∈ s.table.rows ∧ ¬(sched.id = r.id ∧ sched.nextRunUnixMs = r.nextRunUnixMs) := by
  obtain ⟨r₀, hr₀, rfl⟩ := List.mem_map.1 hr
  subst hnow
  by_cases hexpected : isExpected sched.id sched.nextRunUnixMs r₀ = true
  · -- its new slot is behind the tick
    exfalso
    obtain ⟨-, -, -, hnext⟩ := hlate
    rw [advanceRow, if_pos hexpected] at hnext
    have hbounds := nowMs_bounds ns
    obtain ⟨hpos, hle, hws, hws'⟩ := hrange
    have hint : (sched.intervalSec * 1000).toInt = sched.intervalSec.toInt * 1000 :=
      toInt_mul_exact (by simp; omega) (by simp; omega)
    have hleast := nextSlot_isLeast hws hws' (by rw [hint]; omega) (by rw [hint]; omega) hbounds.2
    have hgt := hleast.1.2
    simp only at hnext
    omega
  · have hsame : advanceRow sched.id sched.nextRunUnixMs
        (nextSlot sched.windowStartUnixMs (sched.intervalSec * 1000) (nowMs ns)) r₀ = r₀ := by
      rw [advanceRow, if_neg hexpected]
    rw [hsame] at hlate ⊢
    refine ⟨hr₀, ?_⟩
    rintro ⟨hid, hnext⟩
    apply hexpected
    simp [isExpected, hid, hnext, hlate.1]

/-- The rest of the due rows, behind a claim that was carried out. -/
theorem KeptUp.advance (h : KeptUp s) {now : Int64} {sched : CommandSchedule} {rest : List CommandSchedule}
    (hl : s.loop = .claiming now (sched :: rest)) {r : CommandSchedule}
    (hr : r ∈ (advanceSchedule s now sched).2.rows) (hlate : Late now r) :
    ∃ d ∈ rest, d.id = r.id ∧ d.nextRunUnixMs = r.nextRunUnixMs := by
  obtain ⟨htick, ns, hns⟩ := h.tick now (by rw [hl]; rfl)
  have hrange : InRange sched := h.due sched (by rw [hl]; exact List.mem_cons_self)
  obtain ⟨hr, hother⟩ := late_advance hns hrange hr hlate
  have hsees := h.sees now htick r hr hlate
  rw [hl] at hsees
  obtain ⟨-, d, hd, hmatches⟩ := hsees
  rcases List.mem_cons.1 hd with rfl | hd
  · exact absurd hmatches hother
  · exact ⟨d, hd, hmatches⟩

/-- A step that leaves the table and the loop alone. -/
theorem KeptUp.of_same (h : KeptUp s) (hloop : s'.loop = s.loop) (htick : s'.lastTick = s.lastTick)
    (hclock : s.clock ≤ s'.clock)
    (htable : ∀ t, s.lastTick = some t → t ≤ nowMs s.clock → ∀ r ∈ s'.table.rows, Late t r → r ∈ s.table.rows) :
    KeptUp s' := by
  refine ⟨fun t ht => ?_, fun now hnow => ?_, fun d hd => ?_, fun t ht r hr hlate => ?_⟩
  · rw [htick] at ht
    exact Int64.le_trans (h.clock t ht) (nowMs_mono hclock)
  · rw [hloop] at hnow
    rw [htick]
    exact h.tick now hnow
  · rw [hloop] at hd
    exact h.due d hd
  · rw [htick] at ht
    rw [hloop]
    exact h.sees t ht r (htable t ht (h.clock t ht) r hr hlate) hlate

/-- A loop that waits or has returned. -/
theorem KeptUp.setLoop (h : KeptUp s) {x : LoopAt} (hnow : x.now = none) (hdue : x.due = [])
    (hsees : ∀ t r, s.lastTick = some t → r ∈ s.table.rows → Late t r → s.loop.Sees t r → x.Sees t r) :
    KeptUp { s with loop := x } := by
  refine ⟨h.clock, fun now hn => ?_, fun d hd => ?_, fun t ht r hr hlate => ?_⟩
  · rw [hnow] at hn
    cases hn
  · rw [hdue] at hd
    cases hd
  · exact hsees t r ht hr hlate (h.sees t ht r hr hlate)

/-- The loop over the due rows goes on with the next one. -/
theorem KeptUp.next (h : KeptUp s) {now : Int64} {sched : CommandSchedule} {rest : List CommandSchedule}
    (hl : s.loop = .claiming now (sched :: rest)) {x : LoopAt} {table : CommandSchedules} {claimed : List Slot}
    (hnow : x.now = some now) (hdue : ∀ d ∈ x.due, d ∈ sched :: rest)
    (hsees : ∀ r ∈ table.rows, Late now r → x.Sees now r) :
    KeptUp { s with table := table, loop := x, claimed := claimed } := by
  obtain ⟨htick, hns⟩ := h.tick now (by rw [hl]; rfl)
  refine ⟨h.clock, fun now' hn => ?_, fun d hd => h.due d (by rw [hl]; exact hdue d hd), fun t ht r hr hlate => ?_⟩
  · cases hnow.symm.trans hn
    exact ⟨htick, hns⟩
  · cases htick.symm.trans ht
    exact hsees r hr hlate

/-- The loop goes on behind its critical section. -/
theorem KeptUp.enqueue (h : KeptUp s) {now : Int64} {sched : CommandSchedule} {rest : List CommandSchedule}
    (hl : s.loop = .claimed now sched rest) (queue : List CommandSchedule) (busyAgents : Finset String) :
    KeptUp { s with loop := .claiming now rest, queue := queue, busyAgents := busyAgents } := by
  obtain ⟨htick, hns⟩ := h.tick now (by rw [hl]; rfl)
  refine ⟨h.clock, fun now' hn => ?_, fun d hd => ?_, fun t ht r hr hlate => ?_⟩
  · cases hn
    exact ⟨htick, hns⟩
  · exact h.due d (by rw [hl]; exact List.mem_cons_of_mem _ hd)
  · have hsees := h.sees t ht r hr hlate
    rw [hl] at hsees
    exact hsees

theorem KeptUp.step {e : Event} (h : KeptUp s) (hg : KeepsUp s e) (hs : step s e = some s') : KeptUp s' := by
  cases step_goes hs with
  | started => exact h
  | start => exact ⟨nofun, nofun, nofun, nofun⟩
  | stop => exact h.of_same rfl rfl (Int64.le_refl _) fun _ _ _ _ hr _ => hr
  | stopped => exact h
  | join => exact ⟨h.clock, nofun, nofun, fun _ _ _ _ _ => trivial⟩
  | wakeStop => exact h.setLoop rfl rfl fun _ _ _ _ _ _ => trivial
  | wake hl => exact h.setLoop rfl rfl fun _ _ _ _ _ hsees => by rwa [hl] at hsees
  | rebase ns ok hl hns => exact h.rebase hl hg hns
  | list now ok hl => exact h.list hl hg
  | claimRefused now sched rest hl =>
    obtain ⟨htick, -⟩ := h.tick now (by rw [hl]; rfl)
    refine h.next hl rfl (fun d hd => List.mem_cons_of_mem _ hd) fun r hr hlate => ⟨rfl, ?_⟩
    have hsees := h.sees now htick r hr hlate
    rw [hl] at hsees
    obtain ⟨-, d, hd, hid, hnext⟩ := hsees
    rcases List.mem_cons.1 hd with rfl | hd
    · have hrecent := hg.2 (now, d) (by rw [hl]; rfl)
      obtain ⟨-, -, -, hold⟩ := hlate
      rw [← hnext] at hold
      simp only at hrecent
      omega
    · exact ⟨d, hd, hid, hnext⟩
  | claimLost now sched rest hl =>
    exact h.next hl rfl (fun d hd => List.mem_cons_of_mem _ hd) fun r hr hlate => ⟨rfl, h.advance hl hr hlate⟩
  | claimMissed now sched rest hl =>
    exact h.next hl rfl (fun d hd => List.mem_cons_of_mem _ hd) fun r hr hlate => ⟨rfl, h.advance hl hr hlate⟩
  | claim now sched rest hl =>
    exact h.next hl rfl (fun d hd => hd) fun r hr hlate => ⟨rfl, h.advance hl hr hlate⟩
  | enqueueStop => exact h.setLoop rfl rfl fun _ _ _ _ _ _ => trivial
  | enqueueBusy now sched rest hl => exact h.enqueue hl s.queue s.busyAgents
  | enqueue now sched rest hl => exact h.enqueue hl _ _
  | endTick now hl =>
    refine h.setLoop rfl rfl fun t r _ _ _ hsees => ?_
    rw [hl] at hsees
    obtain ⟨-, d, hd, -⟩ := hsees
    cases hd
  | record i ns ok run hi hns => exact h.of_same rfl rfl hns fun _ _ _ _ hr _ => hr
  | checkLate i ns run hi hns => exact h.of_same rfl rfl hns fun _ _ _ _ hr _ => hr
  | check i ns run hi hns => exact h.of_same rfl rfl hns fun _ _ _ _ hr _ => hr
  | create schedule =>
    refine h.of_same rfl rfl (Int64.le_refl _) fun t _ ht r hr hlate => ?_
    by_cases htaken : schedule.id ∈ s.table.keys
    · rwa [KeyedTable.insert_taken htaken] at hr
    rw [KeyedTable.insert_free htaken] at hr
    rcases List.mem_append.1 hr with hr | hr
    · exact hr
    rw [List.mem_singleton.1 hr] at hlate
    have hnew := hg.2 hlate.1
    obtain ⟨-, -, -, hnext⟩ := hlate
    rw [Int64.le_iff_toInt_le] at ht
    omega
  | setEnabled id enabled =>
    refine h.of_same rfl rfl (Int64.le_refl _) fun t _ ht r hr hlate => ?_
    obtain ⟨r₀, hr₀, rfl⟩ := List.mem_map.1 hr
    unfold enableRow at hlate ⊢
    split
    · rename_i hid
      rw [if_pos hid] at hlate
      cases enabled with
      | false => exact absurd hlate.1 (by simp)
      | true =>
        have hnew := hg.2 r₀ hr₀ hid
        obtain ⟨-, -, -, hnext⟩ := hlate
        rw [Int64.le_iff_toInt_le] at ht
        simp only at hnext
        omega
    · exact hr₀
  | delete id =>
    exact h.of_same rfl rfl (Int64.le_refl _) fun _ _ _ r hr _ => (List.mem_filter.1 hr).1
  | _ => exact h.of_same rfl rfl (Int64.le_refl _) fun _ _ _ _ hr _ => hr

/-- A tick that keeps up moves no slot on. -/
theorem KeptUp.movesClaimed {e : Event} (h : KeptUp s) (hg : KeepsUp s e) (hs : Threads.step s e = some s') :
    MovesClaimed s e := by
  rintro ns rfl r hr r' hr' hid
  cases step_goes hs with
  | rebase _ _ hl hns =>
    rw [reschedule_rows (h.not_stale hl hg.2 hns)] at hr'
    rw [s.table.eq_of_key hr' hr hid]
    exact .inl rfl

/-! ## Runs -/

/-- **Starvation.** Over every interleaving, from any table of ordinary schedules, in which ticks come at most a second
apart and none finds more than 20 slots that are more than a second old, no slot is moved on unclaimed while its agent
has no queued or executing run. -/
theorem slots_moved_claimed (table : CommandSchedules) (clock : Int64) (events : List Event)
    (h : Guarded step KeepsUp (.new table clock) events) : Guarded step MovesClaimed (.new table clock) events := by
  have hnew : KeptUp (.new table clock) := ⟨nofun, nofun, nofun, nofun⟩
  exact guarded_of_guarded (fun s e s' hk hg hs => hk.step hg hs) (fun s e s' hk hg hs => hk.movesClaimed hg hs) hnew h

/-- Two ticks around one slot. -/
theorem slots_moved_claimed_minute :
    let run : List Event := [.start, .wake, .rebase 60000000000 true, .list true, .claim .done, .enqueue, .endTick,
      .wake, .rebase 61000000000 true]
    ((runEvents step (.new oneSchedule 0) run).map fun s => s.claimed) = some [("s1", 60000)] ∧
      Guarded step KeepsUp (.new oneSchedule 0) run ∧ Guarded step MovesClaimed (.new oneSchedule 0) run := by
  intro run
  have hrange : InRange everyMinute := by
    unfold InRange
    decide
  have hordinary : ∀ next, (0 : Int64) ≤ next → ∀ r ∈ [{ everyMinute with nextRunUnixMs := next }], Ordinary r := by
    intro next hnext r hr
    rw [List.mem_singleton.1 hr]
    exact ⟨hrange, hnext⟩
  have hfirst := hordinary 60000 (by decide)
  have hsecond := hordinary 120000 (by decide)
  have hkeeps : Guarded step KeepsUp (.new oneSchedule 0) run := by
    refine .cons rfl ⟨hfirst, trivial⟩ (.cons rfl ⟨hfirst, trivial⟩ (.cons rfl ⟨hfirst, ?_⟩ (.cons rfl ⟨hfirst, ?_⟩
      (.cons rfl ⟨hfirst, trivial⟩ (.cons rfl ⟨hsecond, trivial⟩ (.cons rfl ⟨hsecond, trivial⟩
        (.cons rfl ⟨hsecond, trivial⟩ (.cons rfl ⟨hsecond, ?_⟩ trivial))))))))
    · exact (by decide : ∀ r ∈ [everyMinute], isStale 60000 r = false)
    · exact ⟨by decide, .inl rfl⟩
    · exact (by decide : (61000 : Int64).toInt ≤ (60000 : Int64).toInt + 1000)
  exact ⟨by decide, hkeeps, slots_moved_claimed oneSchedule 0 run hkeeps⟩

/-! ## Forty-one schedules of one slot -/

def minuteRow (n : Nat) : CommandSchedule :=
  { everyMinute with id := "s" ++ toString n, agentId := "agent-" ++ toString n }

/-- Schedules of as many agents. -/
def crowd : CommandSchedules := ⟨(List.range 41).map minuteRow, by decide +kernel⟩

/-- A tick that claims twenty rows. -/
def fullTick (ns : Int64) : List Event :=
  [.wake, .rebase ns true, .list true] ++ (List.replicate 20 [.claim .done, .enqueue]).flatten ++ [.endTick]

/-- Ticks a second apart around the slot: the first one claims twenty rows early, which stay at their slot, the next
claims the same ones, the third another twenty; the last row, of an agent without a run, is moved on by the fourth. -/
theorem crowded_slot_moved_unclaimed :
    let ticks : List Event :=
      .start :: (fullTick 59999000000 ++ fullTick 60999000000 ++ fullTick 61999000000 ++ [.wake])
    ¬Guarded step MovesClaimed (.new crowd 0) (ticks ++ [.rebase 62999000000 true]) := by
  intro ticks h
  have hticks : ((runEvents step (.new crowd 0) ticks).map fun s =>
      (s.table.rows[40]?, s.claimed.contains ("s40", 60000), s.admission.load "agent-40",
        (rescheduleStaleSchedules 62999 s.table).rows[40]?, decide (s.loop = .ticking ∧ s.clock ≤ 62999000000))) =
      some (some (minuteRow 40), false, 0, some { minuteRow 40 with nextRunUnixMs := 120000 }, true) := by
    decide +kernel
  obtain ⟨s, hs, hstate⟩ := Option.map_eq_some_iff.1 hticks
  simp only [Prod.mk.injEq, decide_eq_true_eq] at hstate
  obtain ⟨hrow, hclaimed, hload, hmoved, hready⟩ := hstate
  have hstep : ∃ t, step s (.rebase 62999000000 true) = some t := ⟨_, if_pos hready⟩
  obtain ⟨t, ht⟩ := hstep
  rcases h.last hs ht 62999000000 rfl _ (List.mem_of_getElem? hrow) _ (List.mem_of_getElem? hmoved) rfl with
    hnext | hmem | hpos
  · exact absurd hnext (by decide +kernel)
  · rw [← List.contains_iff_mem] at hmem
    exact absurd (hclaimed.symm.trans hmem) (by decide)
  · rw [show (minuteRow 40).agentId = "agent-40" by decide +kernel, hload] at hpos
    exact absurd hpos (by decide)

end PudimNetMon.Collector.Threads
