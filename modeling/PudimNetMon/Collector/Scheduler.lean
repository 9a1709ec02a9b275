import PudimNetMon.Lib.ClaimOnce
import PudimNetMon.Lib.Run
import PudimNetMon.Storage.Schedules

/-!
# Schedulers on one table (`command_scheduler.cpp`)

Any number of `CommandScheduler` instances over one `command_schedules` table. A tick is three kinds of events, so that
instances interleave between any two statements: the re-basing, the list of due rows and one compare-and-set for each
row. Clocks are arbitrary. The run records which slots were claimed and which of them were queued.

- `claimed_once`: in a run in which each claim finds its slot already passed, no slot is claimed or queued twice;
- `lt_nextSlot_iff`: a claim moves the row past its slot exactly when the slot is passed.
-/

namespace PudimNetMon.Collector

open Storage

/-- `NowMs`: the milliseconds of a nanosecond clock. -/
def nowMs (ns : Int64) : Int64 := ns / 1000000

/-- Where the scheduler thread stands. -/
inductive LoopPc
  | waiting
  | rebased (now : Int64)
  /-- The due rows still to be claimed. -/
  | claiming (now : Int64) (due : List CommandSchedule)
  | returned
  deriving DecidableEq, Repr

structure CommandScheduler where
  pc : LoopPc := .waiting
  stop : Bool := false
  queue : List CommandSchedule := []
  busyAgents : List String := []
  deriving DecidableEq, Repr

/-- A slot: a schedule and a value of its `next_run`. -/
abbrev Slot := String × Int64

structure World where
  table : CommandSchedules
  schedulers : Nat → CommandScheduler := fun _ => { }
  claimed : List Slot := []
  queued : List Slot := []

/-- How the compare-and-set of a claim ends. -/
inductive ClaimOutcome
  | done
  /-- Carried out, but the connection broke before the answer. -/
  | lostReply
  | refused
  deriving DecidableEq, Repr

inductive Event
  /-- A tick starts and re-bases stale rows; `ok` when the statement reaches the database. -/
  | tick (i : Nat) (ns : Int64) (ok : Bool)
  | list (i : Nat) (ok : Bool)
  | claim (i : Nat) (outcome : ClaimOutcome)
  | endTick (i : Nat)
  | stop (i : Nat)
  | start (i : Nat)
  /-- A worker takes the first queued run. -/
  | take (i : Nat)
  /-- A worker is done with a run of the agent. -/
  | finish (i : Nat) (agentId : String)
  | create (schedule : CommandSchedule)
  | setEnabled (id : String) (enabled : Bool)
  | delete (id : String)
  deriving DecidableEq, Repr

def World.set (w : World) (i : Nat) (s : CommandScheduler) : World :=
  { w with schedulers := fun j => if j = i then s else w.schedulers j }

/-- The loop body behind a successful claim: the run is queued unless the scheduler stops or the agent is busy. -/
def enqueue (w : World) (i : Nat) (s : CommandScheduler) (sched : CommandSchedule) : World :=
  if s.stop then w.set i { s with pc := .returned }
  else if s.busyAgents.contains sched.agentId then w.set i s
  else
    { w.set i { s with queue := s.queue ++ [sched], busyAgents := sched.agentId :: s.busyAgents } with
      queued := w.queued ++ [(sched.id, sched.nextRunUnixMs)] }

/-- The body of the loop over the due rows. -/
def claimRow (w : World) (i : Nat) (now : Int64) (sched : CommandSchedule) (rest : List CommandSchedule)
    (outcome : ClaimOutcome) : World :=
  let s := { w.schedulers i with pc := .claiming now rest }
  let newNext := nextSlot sched.windowStartUnixMs (sched.intervalSec * 1000) now
  let (updated, table) := advanceCommandScheduleNextRun sched.id sched.nextRunUnixMs newNext w.table
  match outcome with
  | .refused => w.set i s
  | .lostReply => { w.set i s with table := table }
  | .done =>
    if updated then
      enqueue { w with table := table, claimed := w.claimed ++ [(sched.id, sched.nextRunUnixMs)] } i s sched
    else { w.set i s with table := table }

def step (w : World) : Event → Option World
  | .tick i ns ok =>
    if (w.schedulers i).pc = .waiting ∧ (w.schedulers i).stop = false then
      some { w.set i { w.schedulers i with pc := .rebased (nowMs ns) } with
        table := if ok then rescheduleStaleSchedules (nowMs ns) w.table else w.table }
    else none
  | .list i ok =>
    match (w.schedulers i).pc with
    | .rebased now =>
      some (w.set i { w.schedulers i with
        pc := .claiming now (if ok then listDueCommandSchedules now w.table else []) })
    | _ => none
  | .claim i outcome =>
    match (w.schedulers i).pc with
    | .claiming now (sched :: rest) => some (claimRow w i now sched rest outcome)
    | _ => none
  | .endTick i =>
    match (w.schedulers i).pc with
    | .claiming _ [] => some (w.set i { w.schedulers i with pc := .waiting })
    | _ => none
  | .stop i => some (w.set i { w.schedulers i with stop := true })
  | .start i =>
    -- `Stop` has joined the thread
    match (w.schedulers i).stop, (w.schedulers i).pc with
    | true, .waiting | true, .returned => some (w.set i { w.schedulers i with stop := false, pc := .waiting })
    | _, _ => none
  | .take i =>
    match (w.schedulers i).queue with
    | _ :: queue => some (w.set i { w.schedulers i with queue := queue })
    | [] => none
  | .finish i agentId =>
    some (w.set i { w.schedulers i with busyAgents := (w.schedulers i).busyAgents.erase agentId })
  | .create schedule =>
    -- `NewScheduleId` gives an id that was never used
    if schedule.id ∈ w.table.keys ∨ schedule.id ∈ w.claimed.map Prod.fst then none
    else some { w with table := w.table.insert schedule }
  | .setEnabled id enabled => some { w with table := setCommandScheduleEnabled id enabled w.table }
  | .delete id => some { w with table := deleteCommandSchedule id w.table }

/-! ## When a claim moves its row on -/

/-- The schedule's times are of ordinary size: no `int64_t` overflows on the way to its next slot. -/
def InRange (r : CommandSchedule) : Prop :=
  0 < r.intervalSec.toInt ∧ r.intervalSec.toInt * 1000 ≤ 2 ^ 61 ∧ -2 ^ 61 ≤ r.windowStartUnixMs.toInt ∧
    r.windowStartUnixMs.toInt ≤ 2 ^ 61

/-- No slot boundary lies behind the present and up to the row's slot: the next slot is a later one. -/
def SlotPassed (r : CommandSchedule) (now : Int64) : Prop :=
  ∀ t, IsSlot r.windowStartUnixMs.toInt (r.intervalSec.toInt * 1000) t → now.toInt < t → r.nextRunUnixMs.toInt < t

/-- A slot is passed once its time has come. -/
theorem slotPassed_of_le {r : CommandSchedule} {now : Int64} (h : r.nextRunUnixMs ≤ now) : SlotPassed r now := by
  intro t _ ht
  rw [Int64.le_iff_toInt_le] at h
  omega

/-- A slot on a boundary is not passed before its time. -/
theorem not_slotPassed {r : CommandSchedule} {now : Int64} (h : now < r.nextRunUnixMs)
    (hslot : IsSlot r.windowStartUnixMs.toInt (r.intervalSec.toInt * 1000) r.nextRunUnixMs.toInt) :
    ¬ SlotPassed r now := by
  intro hpassed
  rw [Int64.lt_iff_toInt_lt] at h
  exact absurd (hpassed _ hslot h) (Int.lt_irrefl _)

theorem toInt_nowMs (ns : Int64) : (nowMs ns).toInt = ns.toInt.tdiv 1000000 := by
  have hlow := ns.le_toInt
  have hhigh := ns.toInt_lt
  have habs : (ns.toInt.tdiv 1000000).natAbs = ns.toInt.natAbs / 1000000 := Int.natAbs_tdiv ..
  unfold nowMs
  rw [Int64.toInt_div, show (1000000 : Int64).toInt = 1000000 from rfl]
  exact Int.bmod_eq_of_le (by omega) (by omega)

theorem nowMs_bounds (ns : Int64) : -2 ^ 61 ≤ (nowMs ns).toInt ∧ (nowMs ns).toInt ≤ 2 ^ 61 := by
  have hlow := ns.le_toInt
  have hhigh := ns.toInt_lt
  have habs : (ns.toInt.tdiv 1000000).natAbs = ns.toInt.natAbs / 1000000 := Int.natAbs_tdiv ..
  rw [toInt_nowMs]
  omega

theorem toInt_tolerance (ns : Int64) : (nowMs ns - kToleranceMs).toInt = (nowMs ns).toInt - 2000 ∧
    (nowMs ns + kToleranceMs).toInt = (nowMs ns).toInt + 2000 := by
  have hbounds := nowMs_bounds ns
  have htolerance : kToleranceMs.toInt = 2000 := rfl
  constructor
  · rw [toInt_sub_exact (by rw [htolerance]; omega) (by rw [htolerance]; omega), htolerance]
  · rw [toInt_add_exact (by rw [htolerance]; omega) (by rw [htolerance]; omega), htolerance]

theorem nowMs_mono {ns ns' : Int64} (h : ns ≤ ns') : nowMs ns ≤ nowMs ns' := by
  rw [Int64.le_iff_toInt_le] at h ⊢
  rw [toInt_nowMs, toInt_nowMs]
  exact Int.tdiv_le_tdiv (by decide) h

/-- **Moving on.** The new `next_run` of a claim is behind the old one exactly when the slot is passed. -/
theorem lt_nextSlot_iff {r : CommandSchedule} {now : Int64} (hr : InRange r) (hnow : now.toInt ≤ 2 ^ 61) :
    r.nextRunUnixMs < nextSlot r.windowStartUnixMs (r.intervalSec * 1000) now ↔ SlotPassed r now := by
  obtain ⟨hpos, hle, hws, hws'⟩ := hr
  have hint : (r.intervalSec * 1000).toInt = r.intervalSec.toInt * 1000 :=
    toInt_mul_exact (by simp; omega) (by simp; omega)
  have hleast := nextSlot_isLeast hws hws' (by rw [hint]; omega) (by rw [hint]; omega) hnow
  rw [hint] at hleast
  rw [Int64.lt_iff_toInt_lt]
  constructor
  · intro hlt t hslot ht
    exact Int.lt_of_lt_of_le hlt (hleast.2 ⟨hslot, ht⟩)
  · intro hpassed
    exact hpassed _ hleast.1.1 hleast.1.2

/-! ## No slot twice -/

/-- A step re-bases only schedules with a positive interval, and a claim finds its slot passed. -/
def MeetsPassedSlots (w : World) : Event → Prop
  | .tick _ ns true => ∀ r ∈ w.table.rows, isStale (nowMs ns) r = true → 0 < r.intervalSec.toInt
  | .claim i _ => ∀ now sched rest, (w.schedulers i).pc = .claiming now (sched :: rest) →
      InRange sched ∧ SlotPassed sched now
  | _ => True

/-- No slot was claimed twice, and none was queued twice. -/
def ClaimedOnce (w : World) : Prop := w.claimed.Nodup ∧ w.queued.Nodup

/-- Every claimed slot is behind its row; only claimed slots are queued; clocks are those of `NowMs`. -/
structure Inv (w : World) : Prop where
  claims : ClaimInv CommandSchedule.id CommandSchedule.nextRunUnixMs w.table.rows w.claimed
  queued : w.queued.Sublist w.claimed
  clock : ∀ i now due, (w.schedulers i).pc = .rebased now ∨ (w.schedulers i).pc = .claiming now due →
    now.toInt ≤ 2 ^ 61

variable {w w' : World}

@[simp] theorem set_table (w : World) (i : Nat) (s : CommandScheduler) : (w.set i s).table = w.table := rfl
@[simp] theorem set_claimed (w : World) (i : Nat) (s : CommandScheduler) : (w.set i s).claimed = w.claimed := rfl
@[simp] theorem set_queued (w : World) (i : Nat) (s : CommandScheduler) : (w.set i s).queued = w.queued := rfl
theorem set_schedulers (w : World) (i j : Nat) (s : CommandScheduler) :
    (w.set i s).schedulers j = if j = i then s else w.schedulers j := rfl

/-- An instance changes, under a clock that was read. -/
theorem clock_set {i : Nat} {s : CommandScheduler} (h : Inv w)
    (hs : ∀ now due, s.pc = .rebased now ∨ s.pc = .claiming now due → now.toInt ≤ 2 ^ 61) (j : Nat) (now : Int64)
    (due : List CommandSchedule)
    (hpc : ((w.set i s).schedulers j).pc = .rebased now ∨ ((w.set i s).schedulers j).pc = .claiming now due) :
    now.toInt ≤ 2 ^ 61 := by
  rw [set_schedulers] at hpc
  split at hpc
  · exact hs now due hpc
  · exact h.clock j now due hpc

theorem inv_set {i : Nat} {s : CommandScheduler} (h : Inv w)
    (hs : ∀ now due, s.pc = .rebased now ∨ s.pc = .claiming now due → now.toInt ≤ 2 ^ 61) : Inv (w.set i s) :=
  ⟨h.claims, h.queued, clock_set h hs⟩

/-- The compare-and-set of a claim whose slot is passed moves its rows forward. -/
theorem claims_advance {sched : CommandSchedule} {new : Int64} (h : Inv w) (hnew : sched.nextRunUnixMs < new) :
    ClaimInv CommandSchedule.id CommandSchedule.nextRunUnixMs
      (advanceCommandScheduleNextRun sched.id sched.nextRunUnixMs new w.table).2.rows w.claimed :=
  h.claims.advance fun r _ => ⟨advanceRow_id .., advanceRow_le hnew r⟩

/-- When it succeeds, the slot was not claimed before and lies behind its row. -/
theorem claims_claim {sched : CommandSchedule} {new : Int64} (h : Inv w) (hnew : sched.nextRunUnixMs < new)
    (hupdated : (advanceCommandScheduleNextRun sched.id sched.nextRunUnixMs new w.table).1 = true) :
    ClaimInv CommandSchedule.id CommandSchedule.nextRunUnixMs
      (advanceCommandScheduleNextRun sched.id sched.nextRunUnixMs new w.table).2.rows
      (w.claimed ++ [(sched.id, sched.nextRunUnixMs)]) := by
  obtain ⟨hat, hmoved⟩ := advance_updated hupdated
  refine h.claims.claim (fun r _ => ⟨advanceRow_id .., advanceRow_le hnew r⟩) hat fun r hr hid => ?_
  rw [hmoved r hr hid]
  exact hnew

/-- Queueing a claimed run. -/
theorem inv_enqueue {i : Nat} {s : CommandScheduler} {sched : CommandSchedule} {before : List Slot}
    (hclaimed : w.claimed = before ++ [(sched.id, sched.nextRunUnixMs)]) (hqueued : w.queued.Sublist before)
    (hclaims : ClaimInv CommandSchedule.id CommandSchedule.nextRunUnixMs w.table.rows w.claimed)
    (hclock : ∀ j now due, (w.schedulers j).pc = .rebased now ∨ (w.schedulers j).pc = .claiming now due →
      now.toInt ≤ 2 ^ 61)
    (hs : ∀ now due, s.pc = .rebased now ∨ s.pc = .claiming now due → now.toInt ≤ 2 ^ 61) :
    Inv (enqueue w i s sched) := by
  have hw : Inv w := ⟨hclaims, hclaimed ▸ hqueued.trans (List.sublist_append_left ..), hclock⟩
  unfold enqueue
  split
  · exact inv_set hw fun now due hpc => by rcases hpc with hpc | hpc <;> cases hpc
  · split
    · exact inv_set hw hs
    · exact ⟨hclaims, hclaimed ▸ hqueued.append (List.Sublist.refl _), clock_set hw hs⟩

/-- One claim. -/
theorem inv_claimRow {i : Nat} {now : Int64} {sched : CommandSchedule} {rest : List CommandSchedule}
    (h : Inv w) (hpc : (w.schedulers i).pc = .claiming now (sched :: rest)) (hr : InRange sched)
    (hpassed : SlotPassed sched now) (outcome : ClaimOutcome) : Inv (claimRow w i now sched rest outcome) := by
  have hnow : now.toInt ≤ 2 ^ 61 := h.clock i now _ (.inr hpc)
  have hnew := (lt_nextSlot_iff hr hnow).2 hpassed
  have hs : ∀ now' due, ({ w.schedulers i with pc := LoopPc.claiming now rest } : CommandScheduler).pc = .rebased now' ∨
      ({ w.schedulers i with pc := LoopPc.claiming now rest } : CommandScheduler).pc = .claiming now' due →
      now'.toInt ≤ 2 ^ 61 := by
    rintro now' due (hc | hc)
    · cases hc
    · cases hc
      exact hnow
  cases outcome with
  | refused => exact inv_set h hs
  | lostReply => exact ⟨claims_advance h hnew, h.queued, clock_set h hs⟩
  | done =>
    simp only [claimRow]
    split
    · rename_i hupdated
      exact inv_enqueue rfl h.queued (claims_claim h hnew hupdated) h.clock hs
    · exact ⟨claims_advance h hnew, h.queued, clock_set h hs⟩

/-- **Invariant.** Every step that meets passed slots keeps it. -/
theorem inv_step : ∀ (w : World) (e : Event) (w' : World), Inv w → MeetsPassedSlots w e → step w e = some w' → Inv w'
  | w, .tick i ns ok, w', h, hg, hs => by
    simp only [step] at hs
    split at hs
    · cases hs
      have hclock : ∀ now due, ({ w.schedulers i with pc := LoopPc.rebased (nowMs ns) } : CommandScheduler).pc =
          .rebased now ∨ ({ w.schedulers i with pc := LoopPc.rebased (nowMs ns) } : CommandScheduler).pc =
          .claiming now due → now.toInt ≤ 2 ^ 61 := by
        rintro now due (hc | hc)
        · cases hc
          exact (nowMs_bounds ns).2
        · cases hc
      refine ⟨?_, h.queued, clock_set h hclock⟩
      cases ok with
      | false => exact h.claims
      | true =>
        simp only [if_true, rescheduleStaleSchedules]
        split
        · refine h.claims.advance fun r hr => ⟨rebaseRow_id .., rebaseRow_le (hg r hr) ?_⟩
          have := (nowMs_bounds ns).1
          omega
        · exact h.claims
    · cases hs
  | w, .list i ok, w', h, _, hs => by
    simp only [step] at hs
    split at hs
    · rename_i now hpc
      cases hs
      refine inv_set h ?_
      rintro now' due (hc | hc)
      · cases hc
      · cases hc
        exact h.clock i now [] (.inl hpc)
    · cases hs
  | w, .claim i outcome, w', h, hg, hs => by
    simp only [step] at hs
    split at hs
    · rename_i now sched rest hpc
      cases hs
      obtain ⟨hr, hpassed⟩ := hg now sched rest hpc
      exact inv_claimRow h hpc hr hpassed outcome
    · cases hs
  | w, .endTick i, w', h, _, hs => by
    simp only [step] at hs
    split at hs
    · cases hs
      exact inv_set h fun now due hc => by rcases hc with hc | hc <;> cases hc
    · cases hs
  | w, .stop i, w', h, _, hs => by
    cases hs
    exact inv_set h fun now due hc => h.clock i now due hc
  | w, .start i, w', h, _, hs => by
    simp only [step] at hs
    split at hs
    · cases hs
      exact inv_set h fun now due hc => by rcases hc with hc | hc <;> cases hc
    · cases hs
      exact inv_set h fun now due hc => by rcases hc with hc | hc <;> cases hc
    · cases hs
  | w, .take i, w', h, _, hs => by
    simp only [step] at hs
    split at hs
    · cases hs
      exact inv_set h fun now due hc => h.clock i now due hc
    · cases hs
  | w, .finish i agentId, w', h, _, hs => by
    cases hs
    exact inv_set h fun now due hc => h.clock i now due hc
  | w, .create schedule, w', h, _, hs => by
    simp only [step] at hs
    split at hs
    · cases hs
    · rename_i hfresh
      rw [not_or] at hfresh
      cases hs
      refine ⟨?_, h.queued, h.clock⟩
      simp only [KeyedTable.insert_free hfresh.1]
      exact h.claims.fresh fun c hc hid => hfresh.2 (hid ▸ List.mem_map_of_mem hc)
  | w, .setEnabled id enabled, w', h, _, hs => by
    cases hs
    refine ⟨h.claims.advance fun r _ => ⟨enableRow_id .., ?_⟩, h.queued, h.clock⟩
    unfold enableRow
    split <;> exact Int64.le_refl _
  | w, .delete id, w', h, _, hs => by
    cases hs
    exact ⟨h.claims.subset (List.filter_subset_self _), h.queued, h.clock⟩

/-- **At most once.** From any table, over any interleaving of ticks, workers, restarts and API calls in which each
re-based schedule has a positive interval and each claim finds its slot passed, no slot is claimed or queued twice. -/
theorem claimed_once (table : CommandSchedules) (events : List Event)
    (h : Guarded step MeetsPassedSlots { table := table } events) :
    Always step ClaimedOnce { table := table } events :=
  always_of_guarded inv_step (fun _ hi => ⟨hi.claims.nodup, hi.claims.nodup.sublist hi.queued⟩)
    ⟨ClaimInv.start _, List.Sublist.refl _, fun _ _ _ hpc => by rcases hpc with hpc | hpc <;> cases hpc⟩ h

/-- Every minute from time zero, with the first slot next. -/
def everyMinute : CommandSchedule :=
  { id := "s1", agentId := "agent-a", commandId := "ping_burst", windowEndUnixMs := 3600000, intervalSec := 60,
    nextRunUnixMs := 60000, enabled := true }

def oneSchedule : CommandSchedules := ⟨[everyMinute], by simp⟩

/-- Two instances whose ticks interleave at the slot's time: one of them claims it. -/
theorem claimed_once_race :
    let race : List Event := [.tick 0 60000000000 true, .tick 1 60500000000 true, .list 0 true, .list 1 true,
      .claim 1 .done, .claim 0 .done]
    (runEvents step { table := oneSchedule } race).map World.claimed = some [("s1", 60000)] ∧
      Always step ClaimedOnce { table := oneSchedule } race := by
  intro race
  have hpassed : ∀ now sched rest, LoopPc.claiming now (sched :: rest) ∈
      [LoopPc.claiming 60500 [everyMinute], .claiming 60000 [everyMinute]] → InRange sched ∧ SlotPassed sched now := by
    intro now sched rest hpc
    simp only [List.mem_cons, LoopPc.claiming.injEq, List.cons.injEq, List.not_mem_nil, or_false] at hpc
    rcases hpc with ⟨rfl, rfl, -⟩ | ⟨rfl, rfl, -⟩ <;>
      exact ⟨by unfold InRange; decide, slotPassed_of_le (by decide)⟩
  refine ⟨by decide, claimed_once oneSchedule race ?_⟩
  have hpos : ∀ r ∈ [everyMinute], 0 < r.intervalSec.toInt := by decide
  refine .cons rfl (fun r hr _ => hpos r hr) (.cons rfl (fun r hr _ => hpos r hr) (.cons rfl trivial (.cons rfl trivial
    (.cons rfl (fun now sched rest hpc => hpassed now sched rest ?_)
      (.cons rfl (fun now sched rest hpc => hpassed now sched rest ?_) trivial)))))
  · exact List.mem_cons.2 (.inl hpc.symm)
  · exact List.mem_cons.2 (.inr (List.mem_singleton.2 hpc.symm))

/-- One instance, ticking twice in the last two seconds before the slot: both ticks claim it, and both runs are
queued. -/
theorem early_ticks_claim_twice :
    let early : List Event := [.tick 0 58500000000 true, .list 0 true, .claim 0 .done, .endTick 0, .take 0,
      .finish 0 "agent-a", .tick 0 59500000000 true, .list 0 true, .claim 0 .done]
    ((runEvents step { table := oneSchedule } early).map fun w => (w.claimed, w.queued)) =
        some ([("s1", 60000), ("s1", 60000)], [("s1", 60000), ("s1", 60000)]) ∧
      ¬ Always step ClaimedOnce { table := oneSchedule } early := by
  intro early
  have hrun : ((runEvents step { table := oneSchedule } early).map fun w => (w.claimed, w.queued)) =
      some ([("s1", 60000), ("s1", 60000)], [("s1", 60000), ("s1", 60000)]) := by decide
  refine ⟨hrun, fun h => ?_⟩
  obtain ⟨w, hw, hslots⟩ := Option.map_eq_some_iff.1 hrun
  have hclaimed : w.claimed = [("s1", 60000), ("s1", 60000)] := congrArg Prod.fst hslots
  have honce := (h.last hw).1
  rw [hclaimed] at honce
  exact absurd honce (by decide)

end PudimNetMon.Collector
