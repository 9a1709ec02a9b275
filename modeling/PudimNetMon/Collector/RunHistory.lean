import Mathlib.Data.List.Nodup
import Mathlib.Order.OrderDual
import PudimNetMon.Collector.Retry
import PudimNetMon.Lib.Lowest
import PudimNetMon.Lib.Run

/-!
# The history of command runs (`timescale_storage.cpp`, `command_scheduler.cpp`)

The table `command_runs`: a run is inserted when it starts and updated once when it ends, by a worker of the scheduler
or by the run-command handler, any number of them at a time. A statement may be refused, or carried out
without an answer; the collector may end in between, and old runs are pruned.

- `history_truthful`: a row shows no result, or the one its run ended with; a row without one belongs to a run that is
  on its way, or whose result was lost;
- `listCommandRuns_newest`: a listing has the newest of the runs asked for, the newest first.
-/

namespace PudimNetMon.Collector

open Storage

/-! ## Rows -/

/-- The columns that `FinishCommandRun` sets. -/
structure RunResult where
  finishedUnixMs : Int
  success : Bool
  error : String
  summary : String
  fieldsJson : String
  issuesJson : String
  detail : String
  deriving DecidableEq, Repr

/-- A row of `command_runs`; `run_id` is a `BIGSERIAL`. -/
structure RunRow where
  runId : Nat
  scheduleId : String := ""
  agentId : String
  commandId : String
  scheduledUnixMs : Int
  startedUnixMs : Int
  result : Option RunResult := none
  deriving DecidableEq, Repr

abbrev CommandRuns := KeyedTable RunRow.runId

/-- What is left of a statement when it is refused, and what it makes of the table otherwise. -/
def Verdict.apply (verdict : Verdict) (t t' : CommandRuns) : CommandRuns :=
  match verdict with
  | .refused => t
  | .done | .lostReply => t'

/-- `FinishCommandRun`. -/
def finishCommandRun (runId : Nat) (result : RunResult) (t : CommandRuns) : CommandRuns :=
  t.modify (fun r => if r.runId = runId then { r with result := some result } else r) fun r => by split <;> rfl

/-- `PruneCommandRuns`. -/
def pruneCommandRuns (olderThanUnixMs : Int) (t : CommandRuns) : CommandRuns :=
  t.filter fun r => !decide (r.startedUnixMs < olderThanUnixMs)

/-- `ListCommandRuns`; an empty text filters nothing. -/
def listCommandRuns (agentId commandId scheduleId : String) (limit : Int) (t : CommandRuns) : List RunRow :=
  let limit := if limit ≤ 0 || limit > 200 then 200 else limit.toNat
  lowest (fun r => OrderDual.toDual r.startedUnixMs) limit <| t.rows.filter fun r =>
    (agentId.isEmpty || r.agentId = agentId) && (commandId.isEmpty || r.commandId = commandId) &&
      (scheduleId.isEmpty || r.scheduleId = scheduleId)

/-! ## The runs of a process -/

structure History where
  table : CommandRuns := .empty
  /-- The sequence of `run_id`. -/
  nextId : Nat := 1
  /-- The runs that are on their way. -/
  executing : List Nat := []
  /-- The rows inserted, the results with which runs ended, and the runs whose result was lost. -/
  begun : List RunRow := []
  ended : List (Nat × RunResult) := []
  abandoned : List Nat := []

inductive HistoryEvent
  /-- `InsertCommandRun`; `gap` numbers of the sequence go by unused. -/
  | insert (row : RunRow) (gap : Nat) (verdict : Verdict)
  /-- A run ends, and `FinishCommandRun`. -/
  | finish (runId : Nat) (result : RunResult) (verdict : Verdict)
  | prune (olderThanUnixMs : Int) (verdict : Verdict)
  /-- The collector ends. -/
  | crash

namespace History

def step (s : History) : HistoryEvent → Option History
  | .insert row gap verdict =>
    let row := { row with runId := s.nextId + gap, result := none }
    let s := { s with nextId := row.runId + 1 }
    match verdict with
    | .done =>
      some { s with table := s.table.insert row, executing := s.executing ++ [row.runId], begun := s.begun ++ [row] }
    | .lostReply =>
      some { s with table := s.table.insert row, abandoned := s.abandoned ++ [row.runId], begun := s.begun ++ [row] }
    | .refused => some s
  | .finish runId result verdict =>
    if runId ∈ s.executing then
      some { s with
        table := verdict.apply s.table (finishCommandRun runId result s.table)
        executing := s.executing.erase runId
        ended := s.ended ++ [(runId, result)]
        abandoned := s.abandoned ++ if verdict = .refused then [runId] else [] }
    else none
  | .prune olderThanUnixMs verdict =>
    some { s with table := verdict.apply s.table (pruneCommandRuns olderThanUnixMs s.table) }
  | .crash => some { s with executing := [], abandoned := s.abandoned ++ s.executing }

end History

/-- The table shows what happened. -/
structure Truthful (s : History) : Prop where
  /-- A row is one that was inserted, but for its result. -/
  inserted : ∀ r ∈ s.table.rows, { r with result := none } ∈ s.begun
  /-- No number is used twice, and a run ends once. -/
  begunOnce : (s.begun.map RunRow.runId).Nodup
  endedOnce : (s.ended.map Prod.fst).Nodup
  /-- The result a row shows is the one its run ended with. -/
  result : ∀ r ∈ s.table.rows, ∀ x, r.result = some x → (r.runId, x) ∈ s.ended
  /-- A row without a result belongs to a run on its way or to one whose result was lost. -/
  pending : ∀ r ∈ s.table.rows, r.result = none → r.runId ∈ s.executing ∨ r.runId ∈ s.abandoned
  /-- A result that was not lost is in the row, as long as there is one. -/
  shown : ∀ x ∈ s.ended, x.1 ∉ s.abandoned → ∀ r ∈ s.table.rows, r.runId = x.1 → r.result = some x.2

/-! ## What the history keeps -/

/-- The numbers of all runs are below the sequence, and a run on its way has not ended. -/
structure HistoryInv (s : History) : Prop where
  truthful : Truthful s
  begunLt : ∀ r ∈ s.begun, r.runId < s.nextId
  executingLt : ∀ id ∈ s.executing, id < s.nextId
  executingOnce : s.executing.Nodup
  endedLt : ∀ x ∈ s.ended, x.1 < s.nextId
  endedNot : ∀ x ∈ s.ended, x.1 ∉ s.executing
  abandonedLt : ∀ id ∈ s.abandoned, id < s.nextId

variable {s s' : History}

theorem HistoryInv.row_lt (h : HistoryInv s) {r : RunRow} (hr : r ∈ s.table.rows) : r.runId < s.nextId := by
  simpa using h.begunLt _ (h.truthful.inserted r hr)

/-- What an update of one run leaves in the table. -/
theorem mem_finishCommandRun {runId : Nat} {result : RunResult} {t : CommandRuns} {r : RunRow} :
    r ∈ (finishCommandRun runId result t).rows ↔
      (r ∈ t.rows ∧ r.runId ≠ runId) ∨ (r.runId = runId ∧ r.result = some result ∧
        ∃ r₀ ∈ t.rows, r₀.runId = runId ∧ { r with result := none } = { r₀ with result := none }) := by
  simp only [finishCommandRun, KeyedTable.modify, List.mem_map]
  constructor
  · rintro ⟨r₀, hr₀, rfl⟩
    by_cases hid : r₀.runId = runId
    · rw [if_pos hid]
      exact .inr ⟨hid, rfl, r₀, hr₀, hid, rfl⟩
    · rw [if_neg hid]
      exact .inl ⟨hr₀, hid⟩
  · rintro (⟨hr, hid⟩ | ⟨hid, hres, r₀, hr₀, hid₀, heq⟩)
    · exact ⟨r, hr, if_neg hid⟩
    · refine ⟨r₀, hr₀, ?_⟩
      rw [if_pos hid₀]
      cases r
      cases r₀
      simp_all

/-- A new row: its run is on its way, or the answer with its number was lost. -/
theorem HistoryInv.insert (h : HistoryInv s) {row : RunRow} (hid : s.nextId ≤ row.runId) (hres : row.result = none)
    {executing abandoned : List Nat} (hexec : ∀ id ∈ s.executing, id ∈ executing)
    (hexecOf : ∀ id ∈ executing, id ∈ s.executing ∨ id = row.runId) (honce : executing.Nodup)
    (haband : ∀ id ∈ s.abandoned, id ∈ abandoned)
    (habandOf : ∀ id ∈ abandoned, id ∈ s.abandoned ∨ id = row.runId)
    (hin : row.runId ∈ executing ∨ row.runId ∈ abandoned) :
    HistoryInv { s with table := s.table.insert row, nextId := row.runId + 1, begun := s.begun ++ [row],
                        executing, abandoned } := by
  have hrows : (s.table.insert row).rows = s.table.rows ++ [row] := by
    refine KeyedTable.insert_free fun hk => ?_
    obtain ⟨r, hr, heq⟩ := List.mem_map.1 hk
    have := h.row_lt hr
    omega
  have hself : { row with result := none } = row := by rw [← hres]
  constructor
  · constructor
    · intro r hr
      rw [hrows, List.mem_append, List.mem_singleton] at hr
      rcases hr with hr | rfl
      · exact List.mem_append_left _ (h.truthful.inserted r hr)
      · rw [hself]
        exact List.mem_append_right _ List.mem_cons_self
    · rw [List.map_append, List.map_singleton, ← List.concat_eq_append, List.nodup_concat]
      refine ⟨fun hk => ?_, h.truthful.begunOnce⟩
      obtain ⟨r, hr, heq⟩ := List.mem_map.1 hk
      have := h.begunLt r hr
      omega
    · exact h.truthful.endedOnce
    · intro r hr x hx
      rw [hrows, List.mem_append, List.mem_singleton] at hr
      rcases hr with hr | rfl
      · exact h.truthful.result r hr x hx
      · rw [hres] at hx
        cases hx
    · intro r hr hnone
      rw [hrows, List.mem_append, List.mem_singleton] at hr
      rcases hr with hr | rfl
      · exact (h.truthful.pending r hr hnone).imp (hexec _) (haband _)
      · exact hin
    · intro x hx hlost r hr heq
      rw [hrows, List.mem_append, List.mem_singleton] at hr
      rcases hr with hr | rfl
      · exact h.truthful.shown x hx (fun hin => hlost (haband _ hin)) r hr heq
      · have := h.endedLt x hx
        omega
  · intro r hr
    rcases List.mem_append.1 hr with hr | hr
    · have := h.begunLt r hr
      dsimp only
      omega
    · rw [List.mem_singleton.1 hr]
      exact Nat.lt_succ_self _
  · intro id hin
    dsimp only
    rcases hexecOf id hin with hin | rfl
    · have := h.executingLt id hin
      omega
    · omega
  · exact honce
  · intro x hx
    have := h.endedLt x hx
    dsimp only
    omega
  · intro x hx hin
    rcases hexecOf _ hin with hin | heq
    · exact h.endedNot x hx hin
    · have := h.endedLt x hx
      omega
  · intro id hin
    dsimp only
    rcases habandOf id hin with hin | rfl
    · have := h.abandonedLt id hin
      omega
    · omega

/-- A run ends: its row shows the result, or the result is lost. -/
theorem HistoryInv.finish (h : HistoryInv s) {runId : Nat} (hin : runId ∈ s.executing) (result : RunResult)
    {table : CommandRuns} {lost : List Nat}
    (hcase : (table = s.table ∧ lost = [runId]) ∨ (table = finishCommandRun runId result s.table ∧ lost = [])) :
    HistoryInv { s with table, executing := s.executing.erase runId, ended := s.ended ++ [(runId, result)],
                        abandoned := s.abandoned ++ lost } := by
  have hnew : ∀ x ∈ s.ended, x.1 ≠ runId := fun x hx heq => h.endedNot x hx (heq ▸ hin)
  have hlost : ∀ id ∈ lost, id = runId := by
    rcases hcase with ⟨-, rfl⟩ | ⟨-, rfl⟩ <;> simp
  have herase : ∀ id ∈ s.executing.erase runId, id ∈ s.executing := fun id => List.mem_of_mem_erase
  -- a row is an old one of another run, or of the run itself: with the result, or as it was when that is lost
  have hrow : ∀ r ∈ table.rows, (r ∈ s.table.rows ∧ (r.runId = runId → lost = [runId])) ∨
      (r.runId = runId ∧ r.result = some result ∧ { r with result := none } ∈ s.begun) := by
    intro r hr
    rcases hcase with ⟨rfl, rfl⟩ | ⟨rfl, rfl⟩
    · exact .inl ⟨hr, fun _ => rfl⟩
    · rcases mem_finishCommandRun.1 hr with ⟨hr, hne⟩ | ⟨heq, hres, r₀, hr₀, -, hsame⟩
      · exact .inl ⟨hr, fun heq => absurd heq hne⟩
      · exact .inr ⟨heq, hres, hsame ▸ h.truthful.inserted r₀ hr₀⟩
  constructor
  · constructor
    · intro r hr
      rcases hrow r hr with ⟨hr, -⟩ | ⟨-, -, hb⟩
      · exact h.truthful.inserted r hr
      · exact hb
    · exact h.truthful.begunOnce
    · rw [List.map_append, List.map_singleton, ← List.concat_eq_append, List.nodup_concat]
      refine ⟨fun hk => ?_, h.truthful.endedOnce⟩
      obtain ⟨x, hx, heq⟩ := List.mem_map.1 hk
      exact hnew x hx heq
    · intro r hr x hx
      rcases hrow r hr with ⟨hr, -⟩ | ⟨heq, hres, -⟩
      · exact List.mem_append_left _ (h.truthful.result r hr x hx)
      · cases hres.symm.trans hx
        exact List.mem_append_right _ (heq ▸ List.mem_cons_self)
    · intro r hr hnone
      rcases hrow r hr with ⟨hr, hself⟩ | ⟨-, hres, -⟩
      · by_cases heq : r.runId = runId
        · rw [hself heq, heq]
          exact .inr (List.mem_append_right _ List.mem_cons_self)
        · exact (h.truthful.pending r hr hnone).imp (fun he => (List.mem_erase_of_ne heq).2 he)
            (List.mem_append_left _)
      · rw [hnone] at hres
        cases hres
    · intro x hx hkept r hr heq
      rw [List.mem_append, not_or] at hkept
      rcases List.mem_append.1 hx with hx | hx
      · rcases hrow r hr with ⟨hr, -⟩ | ⟨hid, -, -⟩
        · exact h.truthful.shown x hx hkept.1 r hr heq
        · exact absurd (heq.symm.trans hid) (hnew x hx)
      · cases List.mem_singleton.1 hx
        rcases hrow r hr with ⟨-, hself⟩ | ⟨-, hres, -⟩
        · exact absurd (hself heq ▸ List.mem_cons_self) hkept.2
        · exact hres
  · exact h.begunLt
  · exact fun id hid => h.executingLt id (herase id hid)
  · exact h.executingOnce.erase runId
  · intro x hx
    rcases List.mem_append.1 hx with hx | hx
    · exact h.endedLt x hx
    · rw [List.mem_singleton.1 hx]
      exact h.executingLt runId hin
  · intro x hx hid
    rcases List.mem_append.1 hx with hx | hx
    · exact h.endedNot x hx (herase _ hid)
    · rw [List.mem_singleton.1 hx] at hid
      exact h.executingOnce.not_mem_erase hid
  · intro id hid
    rcases List.mem_append.1 hid with hid | hid
    · exact h.abandonedLt id hid
    · rw [hlost id hid]
      exact h.executingLt runId hin

/-- Rows that go take nothing with them but themselves, and numbers may go by unused. -/
theorem HistoryInv.prune (h : HistoryInv s) {table : CommandRuns} (hsub : table.rows ⊆ s.table.rows) {nextId : Nat}
    (hid : s.nextId ≤ nextId) : HistoryInv { s with table, nextId } where
  truthful :=
    { inserted := fun r hr => h.truthful.inserted r (hsub hr)
      begunOnce := h.truthful.begunOnce
      endedOnce := h.truthful.endedOnce
      result := fun r hr => h.truthful.result r (hsub hr)
      pending := fun r hr => h.truthful.pending r (hsub hr)
      shown := fun x hx hkept r hr => h.truthful.shown x hx hkept r (hsub hr) }
  begunLt := fun r hr => Nat.lt_of_lt_of_le (h.begunLt r hr) hid
  executingLt := fun id hin => Nat.lt_of_lt_of_le (h.executingLt id hin) hid
  executingOnce := h.executingOnce
  endedLt := fun x hx => Nat.lt_of_lt_of_le (h.endedLt x hx) hid
  endedNot := h.endedNot
  abandonedLt := fun id hin => Nat.lt_of_lt_of_le (h.abandonedLt id hin) hid

/-- The runs that were on their way are abandoned. -/
theorem HistoryInv.crash (h : HistoryInv s) :
    HistoryInv { s with executing := [], abandoned := s.abandoned ++ s.executing } where
  truthful :=
    { inserted := h.truthful.inserted
      begunOnce := h.truthful.begunOnce
      endedOnce := h.truthful.endedOnce
      result := h.truthful.result
      pending := fun r hr hnone => .inr (List.mem_append.2 (h.truthful.pending r hr hnone).symm)
      shown := fun x hx hkept => h.truthful.shown x hx fun hin => hkept (List.mem_append_left _ hin) }
  begunLt := h.begunLt
  executingLt := fun _ hid => absurd hid List.not_mem_nil
  executingOnce := List.nodup_nil
  endedLt := h.endedLt
  endedNot := fun _ _ => List.not_mem_nil
  abandonedLt := fun id hid => (List.mem_append.1 hid).elim (h.abandonedLt id) (h.executingLt id)

theorem HistoryInv.step (h : HistoryInv s) {e : HistoryEvent} (hs : s.step e = some s') : HistoryInv s' := by
  cases e with
  | insert row gap verdict =>
    cases verdict with
    | refused =>
      cases hs
      exact h.prune (fun _ => id) (Nat.le_succ_of_le (Nat.le_add_right _ _))
    | done =>
      cases hs
      refine @HistoryInv.insert s h { row with runId := s.nextId + gap, result := none } (by simp) rfl _ _
        (fun _ => List.mem_append_left _) (fun id hid => by simpa using hid) ?_ (fun _ => id) (fun _ => .inl)
        (.inl (by simp))
      rw [← List.concat_eq_append, List.nodup_concat]
      refine ⟨fun hid => ?_, h.executingOnce⟩
      have := h.executingLt _ hid
      dsimp only at this
      omega
    | lostReply =>
      cases hs
      exact @HistoryInv.insert s h { row with runId := s.nextId + gap, result := none } (by simp) rfl _ _
        (fun _ => id) (fun _ => .inl) h.executingOnce (fun _ => List.mem_append_left _)
        (fun id hid => by simpa using hid) (.inr (by simp))
  | finish runId result verdict =>
    simp only [History.step] at hs
    split at hs
    · rename_i hin
      cases hs
      refine h.finish hin result ?_
      cases verdict with
      | refused => exact .inl ⟨rfl, rfl⟩
      | done | lostReply => exact .inr ⟨rfl, rfl⟩
    · cases hs
  | prune olderThanUnixMs verdict =>
    cases hs
    refine h.prune ?_ (Nat.le_refl _)
    cases verdict with
    | refused => exact fun _ => id
    | done | lostReply => exact List.filter_subset_self _
  | crash =>
    cases hs
    exact h.crash

theorem historyInv_empty : HistoryInv { } where
  truthful := ⟨nofun, List.nodup_nil, List.nodup_nil, nofun, nofun, nofun⟩
  begunLt := nofun
  executingLt := nofun
  executingOnce := List.nodup_nil
  endedLt := nofun
  endedNot := nofun
  abandonedLt := nofun

/-- **Main.** Whatever is refused, lost, pruned or cut short, in any order and with any number of runs at a time: in
every state the table shows what happened. -/
theorem history_truthful (es : List HistoryEvent) : Always History.step Truthful { } es :=
  always_of_inv (fun _ _ _ h hs => h.step hs) (fun _ h => h.truthful) historyInv_empty

/-! ## Listings -/

/-- Which rows a listing asks for. -/
def Listed (agentId commandId scheduleId : String) (r : RunRow) : Prop :=
  (agentId = "" ∨ r.agentId = agentId) ∧ (commandId = "" ∨ r.commandId = commandId) ∧
    (scheduleId = "" ∨ r.scheduleId = scheduleId)

/-- A listing has rows that were asked for, each once and the newest first; it is full or has all of them, and what is
left out is no newer than anything in it. -/
theorem listCommandRuns_newest (agentId commandId scheduleId : String) (limit : Int) (t : CommandRuns) :
    let rows := listCommandRuns agentId commandId scheduleId limit t
    (∀ r ∈ rows, r ∈ t.rows ∧ Listed agentId commandId scheduleId r) ∧ rows.Nodup ∧
      rows.Pairwise (fun r r' => r'.startedUnixMs ≤ r.startedUnixMs) ∧ rows.length ≤ 200 ∧
      ∀ r' ∈ t.rows, Listed agentId commandId scheduleId r' → r' ∉ rows →
        (rows.length : Int) = (if limit ≤ 0 ∨ 200 < limit then 200 else limit) ∧
          ∀ r ∈ rows, r'.startedUnixMs ≤ r.startedUnixMs := by
  intro rows
  set asked := t.rows.filter fun r => (agentId.isEmpty || r.agentId = agentId) &&
    (commandId.isEmpty || r.commandId = commandId) && (scheduleId.isEmpty || r.scheduleId = scheduleId) with hasked
  set n : Nat := if limit ≤ 0 || limit > 200 then 200 else limit.toNat with hn
  have hrows : rows = lowest (fun r : RunRow => OrderDual.toDual r.startedUnixMs) n asked := rfl
  have hmem : ∀ r, r ∈ asked ↔ r ∈ t.rows ∧ Listed agentId commandId scheduleId r := by
    intro r
    simp [hasked, Listed, and_assoc]
  have hnodup : asked.Nodup := (List.Nodup.of_map _ t.nodup).filter _
  have hlimit : (n : Int) = (if limit ≤ 0 ∨ 200 < limit then 200 else limit) ∧ n ≤ 200 := by
    by_cases h : limit ≤ 0 ∨ 200 < limit
    · have hor : (decide (limit ≤ 0) || decide (limit > 200)) = true := by simpa using h
      rw [hn, if_pos hor, if_pos h]
      omega
    · have hor : ¬(decide (limit ≤ 0) || decide (limit > 200)) = true := by simpa using h
      rw [hn, if_neg hor, if_neg h]
      omega
  obtain ⟨rest, hperm, hsorted⟩ := exists_cut (fun r : RunRow => OrderDual.toDual r.startedUnixMs) n asked
  rw [← hrows] at hperm hsorted
  have hlength : rows.length = min n asked.length := by
    rw [hrows, lowest, List.length_take, List.length_mergeSort]
  obtain ⟨hfront, -, hbelow⟩ := List.pairwise_append.1 hsorted
  refine ⟨fun r hr => (hmem r).1 (lowest_subset hr), ?_, hfront, by omega, fun r' hr' hlisted hout => ?_⟩
  · exact (List.nodup_append.1 (hperm.nodup_iff.2 hnodup)).1
  · have hin : r' ∈ asked := (hmem r').2 ⟨hr', hlisted⟩
    have hrest : r' ∈ rest := (List.mem_append.1 (hperm.mem_iff.2 hin)).resolve_left hout
    have hcut := hperm.length_eq
    have hpos := List.length_pos_of_mem hrest
    rw [List.length_append] at hcut
    refine ⟨?_, fun r hr => hbelow r hr r' hrest⟩
    rw [← hlimit.1]
    omega

end PudimNetMon.Collector
