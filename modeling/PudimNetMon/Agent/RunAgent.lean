import PudimNetMon.Agent.Conservation

/-!
# `RunAgent` from probes to collector (`main.cpp`, `probe_runner.cpp`)

The probe thread and the main loop meet in the runner's queue only, so a cycle and an iteration are one event each, in
any order. The loop is left at the top of an iteration; the probe thread may end cycles until `Stop` has joined it.
With the process its memory goes: the queue and the in-memory buffer.

- `noSilentLoss_iff`: batches vanish exactly when a cycle finds the queue full, or the process ends with batches in the
  queue or in the buffer.
-/

namespace PudimNetMon.Agent

inductive Phase
  | running
  /-- The loop is left. -/
  | stopping
  | exited
  deriving DecidableEq, Repr

structure Process where
  runner : ProbeRunner
  loop : LoopState
  phase : Phase := .running

inductive Event
  /-- A cycle of the probe thread ends, with its metrics. -/
  | cycle (timestampUnixMs : Int) (metrics : List Metric)
  /-- An iteration of the main loop, on what `Drain` takes. -/
  | iterate (pushes : Nat → PushAnswers) (elapsed : Bool) (sends : Nat → SendAnswers)
  /-- `s_running` is false at the top of the loop. -/
  | stop
  /-- The probe thread is joined and `RunAgent` returns. -/
  | exit

section

variable (serialize : MetricsBatch → Option Blob) (parse : Blob → Option MetricsBatch) (cfg : AgentConfig)

def Process.step (p : Process) : Event → Option Process
  | .cycle timestampUnixMs metrics =>
    if p.phase = .exited then none else some { p with runner := p.runner.finishCycle timestampUnixMs metrics }
  | .iterate pushes elapsed sends =>
    if p.phase = .running then
      let (fresh, runner) := p.runner.drain 50
      some { p with runner, loop := p.loop.iterate serialize parse cfg { fresh, pushes, elapsed, sends } }
    else none
  | .stop => if p.phase = .running then some { p with phase := .stopping } else none
  | .exit =>
    if p.phase = .stopping then
      some { runner := { p.runner with queue := [] }, loop := { p.loop with buffer := [] }, phase := .exited }
    else none

/-- The process behind `Open`, with the payloads earlier ones left on disk. -/
def startAgent (agentId : String) (maxBytes : UInt64) (table : List Blob) (a : OpenAnswers) : Process :=
  { runner := { agentId }, loop := startLoop cfg maxBytes table a }

/-- Every batch produced is queued or buffered, on disk, acknowledged or counted in `buffer_drops`. -/
structure NoSilentLoss (p : Process) : Prop where
  kept : ∀ t ∈ p.runner.produced, t ∈ p.runner.queue ∨ t ∈ p.loop.buffer ∨
    (∃ r ∈ p.loop.disk.pending, r.origin = some t ∧ serialize t.batch = some r.payload) ∨
    (∃ a ∈ p.loop.sends, a.ok ∧ a.item = some t ∧ a.content = t.batch) ∨ t ∈ p.loop.dropped
  counted : p.loop.dropped.length = p.loop.bufferDrops

/-- A cycle finds room in the queue, and the process ends with nothing in memory. -/
def NothingDiscarded (p : Process) : Event → Prop
  | .cycle _ _ => p.runner.queue.length < kMaxQueuedBatches
  | .exit => p.runner.queue = [] ∧ p.loop.buffer = []
  | _ => True

instance (p : Process) : ∀ e, Decidable (NothingDiscarded p e)
  | .cycle _ _ => inferInstanceAs (Decidable (p.runner.queue.length < kMaxQueuedBatches))
  | .exit => inferInstanceAs (Decidable (p.runner.queue = [] ∧ p.loop.buffer = []))
  | .iterate _ _ _ | .stop => .isTrue trivial

/-! ## What the process keeps -/

/-- Batches are numbered as they are produced, and go through the queue to the loop in order. -/
structure ProcessInv (p : Process) : Prop where
  numbered : p.runner.produced.map Tracked.id = List.range p.runner.produced.length
  flow : (p.loop.drained ++ p.runner.queue).Sublist p.runner.produced
  loop : Inv serialize False p.loop

variable {serialize parse cfg} {p p' : Process}

theorem ProcessInv.nodup (h : ProcessInv serialize p) : p.runner.produced.Nodup := by
  refine List.Nodup.of_map Tracked.id ?_
  rw [h.numbered]
  exact List.nodup_range

/-- As long as the process runs, no batch is lost when each is drained or queued. -/
theorem ProcessInv.kept_iff (h : ProcessInv serialize p) :
    NoSilentLoss serialize p ↔ ∀ t ∈ p.runner.produced, t ∈ p.loop.drained ++ p.runner.queue := by
  constructor
  · intro hloss t ht
    rcases hloss.kept t ht with hq | hb | hpassed
    · exact List.mem_append_right _ hq
    · exact List.mem_append_left _ (h.loop.accounts.mem_iff.2 (.inl hb))
    · exact List.mem_append_left _ (h.loop.accounts.mem_iff.2 (.inr (h.loop.mem_passed.2 hpassed)))
  · intro hall
    refine ⟨fun t ht => ?_, h.loop.counted⟩
    rcases List.mem_append.1 (hall t ht) with hd | hq
    · exact .inr ((h.loop.accounts.mem_iff.1 hd).imp_right h.loop.mem_passed.1)
    · exact .inl hq

/-- A cycle loses the oldest batch exactly when the queue is full. -/
theorem ProcessInv.cycle (h : ProcessInv serialize p) (timestampUnixMs : Int) (metrics : List Metric) :
    let q : Process := { p with runner := p.runner.finishCycle timestampUnixMs metrics }
    ProcessInv serialize q ∧
      (NoSilentLoss serialize p → (NoSilentLoss serialize q ↔ p.runner.queue.length < kMaxQueuedBatches)) := by
  intro q
  obtain ⟨t, hid, hproduced, hqueue⟩ := p.runner.finishCycle_spec timestampUnixMs metrics
  have hkept : (if p.runner.queue.length < kMaxQueuedBatches then p.runner.queue else p.runner.queue.tail).Sublist
      p.runner.queue := by
    split
    · exact List.Sublist.refl _
    · exact List.tail_sublist _
  have hinv : ProcessInv serialize q := by
    refine ⟨?_, ?_, h.loop⟩
    · rw [show q.runner.produced = _ from hproduced, List.map_append, h.numbered, List.length_append,
        List.length_singleton, List.range_succ, List.map_singleton, hid]
    · rw [show q.runner.produced = _ from hproduced, show q.runner.queue = _ from hqueue, ← List.append_assoc]
      exact (((List.Sublist.refl _).append hkept).trans h.flow).append (List.Sublist.refl _)
  refine ⟨hinv, fun hloss => ?_⟩
  rw [h.kept_iff] at hloss
  rw [hinv.kept_iff, show q.runner.produced = _ from hproduced, show q.runner.queue = _ from hqueue,
    ← List.append_assoc, show q.loop = p.loop from rfl]
  constructor
  · intro hall
    by_contra hfull
    rw [if_neg hfull] at hall
    -- the evicted batch is not drained and not queued again
    obtain ⟨evicted, rest, hq⟩ : ∃ evicted rest, p.runner.queue = evicted :: rest := by
      cases hq : p.runner.queue with
      | nil => simp [hq, kMaxQueuedBatches] at hfull
      | cons evicted rest => exact ⟨evicted, rest, rfl⟩
    have hflow := h.flow
    rw [hq] at hall hflow
    have hproduced' : evicted ∈ p.runner.produced :=
      hflow.subset (List.mem_append_right _ List.mem_cons_self)
    obtain ⟨-, hcons, hdisjoint⟩ := List.nodup_append'.1 (h.nodup.sublist hflow)
    have hnew := hinv.nodup
    rw [show q.runner.produced = _ from hproduced] at hnew
    rcases List.mem_append.1 (hall evicted (List.mem_append_left _ hproduced')) with hmem | hmem
    · rcases List.mem_append.1 hmem with hmem | hmem
      · exact hdisjoint hmem List.mem_cons_self
      · exact (List.nodup_cons.1 hcons).1 hmem
    · exact List.disjoint_of_nodup_append hnew hproduced' hmem
  · intro hroom u hu
    rw [if_pos hroom]
    rcases List.mem_append.1 hu with hu | hu
    · exact List.mem_append_left _ (hloss u hu)
    · exact List.mem_append_right _ hu

/-- An iteration loses nothing. -/
theorem ProcessInv.iterate (hparse : ∀ b blob, serialize b = some blob → parse blob = some b)
    (hmax : 0 ≤ cfg.maxBufferSize) (h : ProcessInv serialize p) (e : Iteration)
    (hfresh : e.fresh = p.runner.queue.take 50) :
    let q : Process := { p with runner := { p.runner with queue := p.runner.queue.drop 50 },
                                loop := p.loop.iterate serialize parse cfg e }
    ProcessInv serialize q ∧ (NoSilentLoss serialize p → NoSilentLoss serialize q) := by
  intro q
  have hflow : q.loop.drained ++ q.runner.queue = p.loop.drained ++ p.runner.queue := by
    show (p.loop.iterate serialize parse cfg e).drained ++ p.runner.queue.drop 50 = _
    rw [iterate_drained, hfresh, List.append_assoc, List.take_append_drop]
  have hnodup : (p.loop.drained ++ e.fresh).Nodup := by
    refine (h.nodup.sublist h.flow).sublist ((List.Sublist.refl _).append ?_)
    rw [hfresh]
    exact List.take_sublist _ _
  have hinv : ProcessInv serialize q :=
    ⟨h.numbered, hflow ▸ h.flow, h.loop.iterate hparse hmax hnodup False.elim⟩
  refine ⟨hinv, fun hloss => ?_⟩
  rw [hinv.kept_iff, hflow]
  exact h.kept_iff.1 hloss

/-- The end of the process loses what is in memory. -/
theorem ProcessInv.exit (h : ProcessInv serialize p) (hloss : NoSilentLoss serialize p) :
    NoSilentLoss serialize
        { runner := { p.runner with queue := [] }, loop := { p.loop with buffer := [] }, phase := .exited } ↔
      p.runner.queue = [] ∧ p.loop.buffer = [] := by
  constructor
  · intro hexit
    have hpassed : ∀ t ∈ p.runner.produced, t ∈ p.loop.passed := by
      intro t ht
      rcases hexit.kept t ht with hq | hb | hpassed
      · cases hq
      · cases hb
      · exact h.loop.mem_passed.2 hpassed
    have hnodup := h.nodup.sublist h.flow
    constructor
    · refine List.eq_nil_iff_forall_not_mem.2 fun t ht => ?_
      have hmem := hpassed t (h.flow.subset (List.mem_append_right _ ht))
      exact List.disjoint_of_nodup_append hnodup (h.loop.accounts.mem_iff.2 (.inr hmem)) ht
    · refine List.eq_nil_iff_forall_not_mem.2 fun t ht => ?_
      have hdrained := h.loop.accounts.mem_iff.2 (.inl ht)
      exact h.loop.accounts.not_mem_back ht (hpassed t (h.flow.subset (List.mem_append_left _ hdrained)))
  · rintro ⟨hq, hb⟩
    refine ⟨fun t ht => ?_, hloss.counted⟩
    have hkept := hloss.kept t ht
    rwa [hq, hb] at hkept

/-- **One event.** -/
theorem process_step (hparse : ∀ b blob, serialize b = some blob → parse blob = some b)
    (hmax : 0 ≤ cfg.maxBufferSize) : ∀ (p : Process) (e : Event) (p' : Process),
    (p.phase ≠ .exited → ProcessInv serialize p) → p.step serialize parse cfg e = some p' →
      (p'.phase ≠ .exited → ProcessInv serialize p') ∧
        (NoSilentLoss serialize p → (NoSilentLoss serialize p' ↔ NothingDiscarded p e))
  | p, .cycle timestampUnixMs metrics, p', h, hs => by
    simp only [Process.step] at hs
    split at hs
    · cases hs
    · rename_i hphase
      cases hs
      obtain ⟨hinv, hloss⟩ := (h hphase).cycle timestampUnixMs metrics
      exact ⟨fun _ => hinv, hloss⟩
  | p, .iterate pushes elapsed sends, p', h, hs => by
    simp only [Process.step, ProbeRunner.drain_eq] at hs
    split at hs
    · rename_i hphase
      cases hs
      have hne : p.phase ≠ .exited := by rw [hphase]; nofun
      obtain ⟨hinv, hloss⟩ := (h hne).iterate hparse hmax ⟨p.runner.queue.take 50, pushes, elapsed, sends⟩ rfl
      exact ⟨fun _ => hinv, fun hp => iff_of_true (hloss hp) trivial⟩
    · cases hs
  | p, .stop, p', h, hs => by
    simp only [Process.step] at hs
    split at hs
    · rename_i hphase
      cases hs
      have hinv := h (by rw [hphase]; nofun)
      exact ⟨fun _ => ⟨hinv.numbered, hinv.flow, hinv.loop⟩, fun hp => iff_of_true ⟨hp.kept, hp.counted⟩ trivial⟩
    · cases hs
  | p, .exit, p', h, hs => by
    simp only [Process.step] at hs
    split at hs
    · rename_i hphase
      cases hs
      have hinv := h (by rw [hphase]; nofun)
      exact ⟨fun hne => absurd rfl hne, fun hp => hinv.exit hp⟩
    · cases hs

/-- **Runs** from any state that has lost nothing. -/
theorem ProcessInv.run (hparse : ∀ b blob, serialize b = some blob → parse blob = some b)
    (hmax : 0 ≤ cfg.maxBufferSize) (h : ProcessInv serialize p) (hloss : NoSilentLoss serialize p) (run : List Event) :
    Always (Process.step serialize parse cfg) (NoSilentLoss serialize) p run ↔
      Guarded (Process.step serialize parse cfg) NothingDiscarded p run :=
  @always_iff_guarded _ _ _ _ (fun p => p.phase ≠ .exited → ProcessInv serialize p) _
    (fun p e p' h hs => (process_step hparse hmax p e p' h hs).1)
    (fun p e p' h hp hs => (process_step hparse hmax p e p' h hs).2 hp) run p (fun _ => h) hloss

theorem inv_startAgent (agentId : String) (maxBytes : UInt64) (table : List Blob) (a : OpenAnswers) :
    ProcessInv serialize (startAgent cfg agentId maxBytes table a) ∧
      NoSilentLoss serialize (startAgent cfg agentId maxBytes table a) :=
  ⟨⟨rfl, List.Sublist.refl _, inv_startLoop False maxBytes table a⟩, ⟨nofun, rfl⟩⟩

/-- **Main.** In a run of cycles, iterations and a shutdown no batch vanishes exactly when every cycle finds room in
the queue and the process ends with nothing in memory. -/
theorem noSilentLoss_iff (hparse : ∀ b blob, serialize b = some blob → parse blob = some b)
    (hmax : 0 ≤ cfg.maxBufferSize) (agentId : String) (maxBytes : UInt64) (table : List Blob) (a : OpenAnswers)
    (run : List Event) :
    Always (Process.step serialize parse cfg) (NoSilentLoss serialize) (startAgent cfg agentId maxBytes table a) run ↔
      Guarded (Process.step serialize parse cfg) NothingDiscarded (startAgent cfg agentId maxBytes table a) run := by
  obtain ⟨hinv, hloss⟩ := inv_startAgent agentId maxBytes table a
  exact hinv.run hparse hmax hloss run

end

/-- One cycle, one iteration that sends its batch, and a shutdown. -/
theorem noSilentLoss_iff_shutdown :
    let cfg : AgentConfig := ⟨200, 5000⟩
    let start := startAgent cfg "a" 1024 [] ⟨true, true, true, true⟩
    let run : List Event := [.cycle 1 [], .iterate (fun _ => ⟨⟨true, 0, true, true⟩, true, true⟩) true fun _ => allWell,
      .stop, .exit]
    (runEvents (Process.step wireSerialize wireParse cfg) start run).map (fun p => delivered p.loop.sends) =
        some [⟨0, { agentId := "a", timestampUnixMs := 1 }⟩] ∧
      Always (Process.step wireSerialize wireParse cfg) (NoSilentLoss wireSerialize) start run := by
  intro cfg start run
  exact ⟨by decide, (noSilentLoss_iff wireParse_wireSerialize (show 0 ≤ cfg.maxBufferSize by decide) "a" 1024 []
    ⟨true, true, true, true⟩ run).2 (by decide)⟩

/-- Fifty-one cycles while the main loop is held up in a send: the first batch is evicted and not counted. A shutdown
behind the first cycle: its batch is neither sent nor on disk. -/
theorem evicted_batch_is_uncounted :
    let cfg : AgentConfig := ⟨200, 5000⟩
    let start := startAgent cfg "a" 1024 [] ⟨true, true, true, true⟩
    ¬Always (Process.step wireSerialize wireParse cfg) (NoSilentLoss wireSerialize) start
        (List.replicate 51 (.cycle 1 [])) ∧
      ¬Always (Process.step wireSerialize wireParse cfg) (NoSilentLoss wireSerialize) start
        [.cycle 1 [], .stop, .exit] := by
  intro cfg start
  obtain ⟨hinv, hloss⟩ := @inv_startAgent wireSerialize cfg "a" 1024 [] ⟨true, true, true, true⟩
  have hrun := hinv.run wireParse_wireSerialize (show 0 ≤ cfg.maxBufferSize by decide) hloss
  exact ⟨(hrun _).not.2 (by decide +kernel), (hrun _).not.2 (by decide)⟩

end PudimNetMon.Agent
