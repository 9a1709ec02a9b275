import PudimNetMon.Agent.RunAgent
import PudimNetMon.Pipeline.Stored

/-!
# From the probes to the table, in direct mode

An agent process (`RunAgent`) and a collector that writes to TimescaleDB itself, beside any other clients of it. Each
send of the agent's main loop is a call of the collector: an event of the agent goes with what becomes of its sends, and
is enabled only when the loop saw the results these calls gave. Anything may be lost or refused on the way, and the
collector may start again at any time.

- `probes_reach_table`: the table was given all rows of each call that was acknowledged, a part of the rows of each other
  call, and nothing else; as long as the agent discards nothing from memory each batch it produced is still queued,
  buffered or on disk, counted as dropped, or was acknowledged.
-/

namespace PudimNetMon.Pipeline

open Agent Collector Storage

/-- A call of the collector, what became of it and what its caller saw. -/
structure Call where
  /-- It is a send of the agent. -/
  own : Bool
  stream : Bool
  batch : MetricsBatch
  exchange : Exchange
  ok : Bool

/-- Its rows, each at the time that the collector read. -/
def Call.rows (c : Call) : List MetricRow := c.exchange.rows c.stream c.batch

structure System where
  agent : Process
  collector : Ingest NetworkMetrics
  /-- The calls so far. -/
  calls : List Call := []

inductive Event
  /-- An event of the agent, with what becomes of each of its sends. -/
  | agent (e : Agent.Event) (exchanges : Nat → Exchange)
  /-- A call of another client. -/
  | other (stream : Bool) (batch : MetricsBatch) (x : Exchange)
  /-- The collector starts again, on the same database. -/
  | restart (service : MetricsServiceImpl) (storage : TimescaleStorage)

section

variable (serialize : MetricsBatch → Option Blob) (parse : Blob → Option MetricsBatch) (cfg : AgentConfig)
  (useStreamMetrics : Bool)

/-- The sends of an event, one call after the other: the collector behind them and the calls, when the agent saw their
results. -/
def converse (exchanges : Nat → Exchange) : Ingest NetworkMetrics → Nat → List (PudimNetMon.Attempt Tracked MetricsBatch) →
    Option (Ingest NetworkMetrics × List Call)
  | c, _, [] => some (c, [])
  | c, k, a :: as =>
    let (ok, c) := (exchanges k).run useStreamMetrics c a.content
    if ok = a.ok then
      (converse exchanges c (k + 1) as).map fun (c, calls) =>
        (c, ⟨true, useStreamMetrics, a.content, exchanges k, ok⟩ :: calls)
    else none

def System.step (s : System) : Event → Option System
  | .agent e exchanges =>
    (s.agent.step serialize parse cfg e).bind fun agent =>
      (converse useStreamMetrics exchanges s.collector 0 (agent.loop.sends.drop s.agent.loop.sends.length)).map
        fun (collector, calls) => { agent, collector, calls := s.calls ++ calls }
  | .other stream batch x =>
    let (ok, collector) := x.run stream s.collector batch
    some { s with collector, calls := s.calls ++ [⟨false, stream, batch, x, ok⟩] }
  | .restart service storage =>
    if service.mode = .direct then some { s with collector := { service, storage, world := s.collector.world } }
    else none

/-- The event discards nothing that the agent holds in memory. -/
def NothingDiscarded (s : System) : Event → Prop
  | .agent e _ => Agent.NothingDiscarded s.agent e
  | _ => True

instance (s : System) : ∀ e, Decidable (NothingDiscarded s e)
  | .agent e _ => inferInstanceAs (Decidable (Agent.NothingDiscarded s.agent e))
  | .other _ _ _ | .restart _ _ => .isTrue trivial

/-- The table was given these rows of a call: the first ones, and all of them if the caller saw it succeed. -/
def Wrote (c : Call) (given : List MetricRow) : Prop := given <+: c.rows ∧ (c.ok = true → given = c.rows)

/-- What an acknowledged call has in the table. -/
structure InTable (before : NetworkMetrics) (s : System) (c : Call) : Prop where
  /-- A row for each metric, in order. -/
  content : c.rows.map contentOf = c.batch.metrics.map (metricRow c.batch.agentId 0)
  keys : ∀ r ∈ c.rows, r.key ∈ s.collector.world.keys
  /-- The row itself, if no other one has its key. -/
  rows : ∀ r ∈ c.rows, (∀ r' ∈ before.rows, r'.key ≠ r.key) →
    (∀ c' ∈ s.calls, ∀ r' ∈ c'.rows, r'.key = r.key → r' = r) → r ∈ s.collector.world.rows

/-- What was acknowledged is in the table, and nothing is there that was not sent. -/
structure Trustworthy (before : NetworkMetrics) (s : System) : Prop where
  /-- The calls of the agent are its sends, with the results it saw. -/
  own : (s.calls.filter (·.own)).map (fun c => (c.batch, c.ok)) = s.agent.loop.sends.map fun a => (a.content, a.ok)
  written : ∃ given : List (List MetricRow), List.Forall₂ Wrote s.calls given ∧
    s.collector.world = before.insertAll given.flatten
  acknowledged : ∀ c ∈ s.calls, c.ok = true → InTable before s c
  sent : ∀ r ∈ s.collector.world.rows, r ∈ before.rows ∨ ∃ c ∈ s.calls, r ∈ c.rows

/-- Every batch the agent produced is queued or buffered, on disk, in the table or counted in `buffer_drops`. -/
structure Accounted (before : NetworkMetrics) (s : System) : Prop where
  kept : ∀ t ∈ s.agent.runner.produced, t ∈ s.agent.runner.queue ∨ t ∈ s.agent.loop.buffer ∨
    (∃ r ∈ s.agent.loop.disk.pending, r.origin = some t ∧ serialize t.batch = some r.payload) ∨
    (∃ c ∈ s.calls, c.own = true ∧ c.ok = true ∧ c.batch = t.batch ∧ InTable before s c) ∨ t ∈ s.agent.loop.dropped
  counted : s.agent.loop.dropped.length = s.agent.loop.bufferDrops

/-! ## What the system keeps -/

/-- The calls so far, and what they wrote. -/
structure Ledger (before : NetworkMetrics) (calls : List Call) (world : NetworkMetrics) : Prop where
  written : ∃ given : List (List MetricRow), List.Forall₂ Wrote calls given ∧ world = before.insertAll given.flatten
  received : ∀ c ∈ calls, c.ok = true → c.exchange.received c.stream c.batch = c.batch.metrics

structure Inv (before : NetworkMetrics) (s : System) : Prop where
  mode : s.collector.service.mode = .direct
  process : s.agent.phase ≠ .exited → ProcessInv serialize s.agent
  own : (s.calls.filter (·.own)).map (fun c => (c.batch, c.ok)) = s.agent.loop.sends.map fun a => (a.content, a.ok)
  ledger : Ledger before s.calls s.collector.world

variable {serialize parse cfg useStreamMetrics} {before : NetworkMetrics} {s s' : System}

/-- A further call. -/
theorem Ledger.call {calls : List Call} {c c' : Ingest NetworkMetrics} (h : Ledger before calls c.world) (own : Bool)
    (stream : Bool) (batch : MetricsBatch) (x : Exchange) (hmode : c.service.mode = .direct)
    (hrun : c' = (x.run stream c batch).2) :
    c'.service.mode = .direct ∧
      Ledger before (calls ++ [⟨own, stream, batch, x, (x.run stream c batch).1⟩]) c'.world := by
  subst hrun
  obtain ⟨hmode', ⟨rows, hfront, hall, hworld⟩, hreceived⟩ := x.run_spec stream batch hmode
  obtain ⟨given, hgiven, hbefore⟩ := h.written
  refine ⟨hmode', ⟨given ++ [rows], ?_, ?_⟩, ?_⟩
  · exact List.rel_append hgiven (.cons ⟨hfront, hall⟩ .nil)
  · rw [hworld, hbefore, List.flatten_append, KeyedTable.insertAll_append, List.flatten_singleton]
  · intro call hcall hok
    rcases List.mem_append.1 hcall with hcall | hcall
    · exact h.received call hcall hok
    · obtain rfl := List.mem_singleton.1 hcall
      exact hreceived hok

/-- Each row that was given is one of its call. -/
theorem mem_given {calls : List Call} {given : List (List MetricRow)} (h : List.Forall₂ Wrote calls given)
    {r : MetricRow} (hr : r ∈ given.flatten) : ∃ c ∈ calls, r ∈ c.rows := by
  induction h with
  | nil => simp at hr
  | @cons c rows calls given hc hrest ih =>
    rw [List.flatten_cons, List.mem_append] at hr
    rcases hr with hr | hr
    · exact ⟨c, List.mem_cons_self, hc.1.subset hr⟩
    · obtain ⟨c', hc', hr'⟩ := ih hr
      exact ⟨c', List.mem_cons_of_mem _ hc', hr'⟩

/-- The rows of an acknowledged call were given. -/
theorem given_of_ok {calls : List Call} {given : List (List MetricRow)} (h : List.Forall₂ Wrote calls given) {c : Call}
    (hc : c ∈ calls) (hok : c.ok = true) {r : MetricRow} (hr : r ∈ c.rows) : r ∈ given.flatten := by
  induction h with
  | nil => cases hc
  | cons hwrote hrest ih =>
    rw [List.flatten_cons, List.mem_append]
    rcases List.mem_cons.1 hc with rfl | hc
    · exact .inl (by rw [hwrote.2 hok]; exact hr)
    · exact .inr (ih hc)

/-- What the ledger says of the table. -/
theorem Inv.trustworthy (h : Inv serialize before s) : Trustworthy before s := by
  obtain ⟨given, hgiven, hworld⟩ := h.ledger.written
  refine ⟨h.own, ⟨given, hgiven, hworld⟩, fun c hc hok => ⟨?_, fun r hr => ?_, fun r hr hold hown => ?_⟩, fun r hr => ?_⟩
  · rw [Call.rows, Exchange.rows_content, h.ledger.received c hc hok]
  · rw [hworld]
    exact KeyedTable.mem_keys_insertAll.2 (.inr (List.mem_map_of_mem (given_of_ok hgiven hc hok hr)))
  · rw [hworld]
    refine KeyedTable.mem_insertAll_own (given_of_ok hgiven hc hok hr) hold fun r' hr' hkey => ?_
    obtain ⟨c', hc', hr'⟩ := mem_given hgiven hr'
    exact hown c' hc' r' hr' hkey
  · rw [hworld] at hr
    exact (KeyedTable.mem_insertAll hr).imp_right (mem_given hgiven)

/-- The sends of an event are further calls. -/
theorem converse_spec (exchanges : Nat → Exchange) {as : List (PudimNetMon.Attempt Tracked MetricsBatch)} {k : Nat}
    {c c' : Ingest NetworkMetrics} {calls new : List Call} (hmode : c.service.mode = .direct)
    (hledger : Ledger before calls c.world) (h : converse useStreamMetrics exchanges c k as = some (c', new)) :
    c'.service.mode = .direct ∧ Ledger before (calls ++ new) c'.world ∧ (∀ call ∈ new, call.own = true) ∧
      new.map (fun call => (call.batch, call.ok)) = as.map fun a => (a.content, a.ok) := by
  induction as generalizing k c calls new with
  | nil =>
    cases h
    exact ⟨hmode, by simpa using hledger, nofun, rfl⟩
  | cons a as ih =>
    unfold converse at h
    dsimp only at h
    split at h
    · rename_i hok
      obtain ⟨⟨c₂, new₂⟩, hrest, heq⟩ := Option.map_eq_some_iff.1 h
      cases heq
      obtain ⟨hmode', hledger'⟩ := hledger.call true useStreamMetrics a.content (exchanges k) hmode rfl
      obtain ⟨hmode₂, hledger₂, hown, hresults⟩ := ih hmode' hledger' hrest
      rw [List.append_assoc] at hledger₂
      refine ⟨hmode₂, hledger₂, ?_, ?_⟩
      · rw [List.forall_mem_cons]
        exact ⟨rfl, hown⟩
      · rw [List.map_cons, List.map_cons, hresults, hok]
    · cases h

/-- An event of the agent adds to its sends. -/
theorem process_sends {p p' : Process} {e : Agent.Event} (h : p.step serialize parse cfg e = some p') :
    p.loop.sends <+: p'.loop.sends := by
  cases e with
  | cycle timestampUnixMs metrics =>
    simp only [Process.step] at h
    split at h <;> cases h
    exact List.prefix_rfl
  | iterate pushes elapsed sends =>
    simp only [Process.step] at h
    split at h <;> cases h
    exact iterate_sends _ _
  | stop =>
    simp only [Process.step] at h
    split at h <;> cases h
    exact List.prefix_rfl
  | exit =>
    simp only [Process.step] at h
    split at h <;> cases h
    exact List.prefix_rfl

/-- **One event.** -/
theorem inv_step (hparse : ∀ b blob, serialize b = some blob → parse blob = some b) (hmax : 0 ≤ cfg.maxBufferSize) :
    ∀ (s : System) (e : Event) (s' : System), Inv serialize before s →
      s.step serialize parse cfg useStreamMetrics e = some s' → Inv serialize before s'
  | s, .agent e exchanges, s', h, hs => by
    obtain ⟨p, hp, hs⟩ := Option.bind_eq_some_iff.1 hs
    obtain ⟨⟨c, new⟩, hc, rfl⟩ := Option.map_eq_some_iff.1 hs
    obtain ⟨hmode, hledger, hown, hresults⟩ := converse_spec exchanges h.mode h.ledger hc
    obtain ⟨sends, hsends⟩ := process_sends hp
    rw [← hsends, List.drop_left] at hresults
    refine ⟨hmode, (process_step hparse hmax s.agent e p h.process hp).1, ?_, hledger⟩
    have hfilter : new.filter (·.own) = new := List.filter_eq_self.2 hown
    show ((s.calls ++ new).filter (·.own)).map _ = p.loop.sends.map _
    rw [List.filter_append, hfilter, List.map_append, h.own, hresults, ← hsends, List.map_append]
  | s, .other stream batch x, s', h, hs => by
    cases hs
    obtain ⟨hmode, hledger⟩ := h.ledger.call false stream batch x h.mode rfl
    refine ⟨hmode, h.process, ?_, hledger⟩
    rw [List.filter_append]
    simpa using h.own
  | s, .restart service storage, s', h, hs => by
    simp only [System.step] at hs
    split at hs
    · rename_i hmode
      cases hs
      exact ⟨hmode, h.process, h.own, h.ledger⟩
    · cases hs

/-- An event of the agent that discards nothing loses nothing. -/
theorem noSilentLoss_step (hparse : ∀ b blob, serialize b = some blob → parse blob = some b)
    (hmax : 0 ≤ cfg.maxBufferSize) (e : Event) (h : Inv serialize before s) (hloss : NoSilentLoss serialize s.agent)
    (hkeep : NothingDiscarded s e) (hs : s.step serialize parse cfg useStreamMetrics e = some s') :
    NoSilentLoss serialize s'.agent := by
  cases e with
  | agent e exchanges =>
    obtain ⟨p, hp, hs⟩ := Option.bind_eq_some_iff.1 hs
    obtain ⟨⟨c, new⟩, hc, rfl⟩ := Option.map_eq_some_iff.1 hs
    exact ((process_step hparse hmax s.agent e p h.process hp).2 hloss).2 hkeep
  | other stream batch x =>
    cases hs
    exact hloss
  | restart service storage =>
    simp only [System.step] at hs
    split at hs <;> cases hs
    exact hloss

/-- What the agent saw acknowledged is in the table. -/
theorem Inv.accounted (h : Inv serialize before s) (hloss : NoSilentLoss serialize s.agent) :
    Accounted serialize before s where
  kept t ht := by
    rcases hloss.kept t ht with hq | hb | hd | ⟨a, ha, hok, -, hcontent⟩ | hdropped
    · exact .inl hq
    · exact .inr (.inl hb)
    · exact .inr (.inr (.inl hd))
    · have hmem : (a.content, a.ok) ∈ (s.calls.filter (·.own)).map fun c => (c.batch, c.ok) := by
        rw [h.own]
        exact List.mem_map.2 ⟨a, ha, rfl⟩
      obtain ⟨c, hc, hsame⟩ := List.mem_map.1 hmem
      obtain ⟨hbatch, hcok⟩ := Prod.mk.inj hsame
      obtain ⟨hc, hown⟩ := List.mem_filter.1 hc
      exact .inr (.inr (.inr (.inl ⟨c, hc, hown, hcok.trans hok, hbatch.trans hcontent,
        h.trustworthy.acknowledged c hc (hcok.trans hok)⟩)))
    · exact .inr (.inr (.inr (.inr hdropped)))
  counted := hloss.counted

/-- The system as the agent starts, with what earlier processes left on its disk and in the table. -/
def start (cfg : AgentConfig) (agentId : String) (maxBytes : UInt64) (disk : List Blob) (a : OpenAnswers)
    (collector : Ingest NetworkMetrics) : System :=
  { agent := startAgent cfg agentId maxBytes disk a, collector }

theorem inv_start (agentId : String) (maxBytes : UInt64) (disk : List Blob) (a : OpenAnswers)
    {collector : Ingest NetworkMetrics} (h : collector.service.mode = .direct) :
    Inv serialize collector.world (start cfg agentId maxBytes disk a collector) where
  mode := h
  process _ := (inv_startAgent agentId maxBytes disk a).1
  own := rfl
  ledger := ⟨⟨[], .nil, (KeyedTable.insertAll_nil _).symm⟩, nofun⟩

/-- **Main.** In every run of the agent, a collector in direct mode and its other clients, whatever is lost or refused
and however often the collector starts again: the table was given the rows of the calls, those of an acknowledged one
whole, and nothing else. As long as no cycle finds the queue full and the agent does not end with batches in memory,
each batch it produced is queued or buffered, on disk, in the table or counted as dropped. -/
theorem probes_reach_table (hparse : ∀ b blob, serialize b = some blob → parse blob = some b)
    (hmax : 0 ≤ cfg.maxBufferSize) (useStreamMetrics : Bool) (agentId : String) (maxBytes : UInt64) (disk : List Blob)
    (a : OpenAnswers) (collector : Ingest NetworkMetrics) (hmode : collector.service.mode = .direct)
    (run : List Event) :
    let step := System.step serialize parse cfg useStreamMetrics
    let begin := start cfg agentId maxBytes disk a collector
    Always step (Trustworthy collector.world) begin run ∧
      (Guarded step NothingDiscarded begin run → Always step (Accounted serialize collector.world) begin run) := by
  intro step begin
  have hinv : Inv serialize collector.world begin := inv_start agentId maxBytes disk a hmode
  constructor
  · exact always_of_inv (inv_step hparse hmax) (fun _ h => h.trustworthy) hinv
  · intro hguard
    have hboth : ∀ s e s', (Inv serialize collector.world s ∧ NoSilentLoss serialize s.agent) → NothingDiscarded s e →
        step s e = some s' → Inv serialize collector.world s' ∧ NoSilentLoss serialize s'.agent :=
      fun s e s' h hg hs => ⟨inv_step hparse hmax s e s' h.1 hs, noSilentLoss_step hparse hmax e h.1 h.2 hg hs⟩
    exact always_of_guarded hboth (fun s h => h.1.accounted h.2)
      ⟨hinv, (inv_startAgent agentId maxBytes disk a).2⟩ hguard

end

/-- Two cycles; the first batch is refused once by the database and then stored with the second, in one iteration. -/
theorem probes_reach_table_retried :
    let ping : Metric := { checkType := .icmpPing, target := "1.1.1.1", success := true }
    let cfg : AgentConfig := ⟨200, 5000⟩
    let iteration (ok : Bool) : Agent.Event :=
      .iterate (fun _ => ⟨⟨true, 0, true, true⟩, true, true⟩) true fun _ => { allWell with send := ok }
    let sent (ms : Int64) (verdict : Verdict) : Exchange :=
      { read := 1, calls := fun _ => { ingestMs := ms }, verdict := fun _ => verdict }
    let begin := start cfg "a" 1024 [] ⟨true, true, true, true⟩ { world := KeyedTable.empty }
    let run : List Event := [.agent (.cycle 1 [ping]) fun _ => sent 0 .done,
      .agent (iteration false) fun _ => sent 7 .refused, .agent (.cycle 2 [ping]) fun _ => sent 0 .done,
      .agent (iteration true) fun k => sent (if k = 0 then 8 else 9) .done]
    let step := System.step wireSerialize wireParse cfg false
    (runEvents step begin run).map (fun s => s.collector.world.rows.map MetricRow.timeMs) = some [8, 9] ∧
      Always step (Trustworthy KeyedTable.empty) begin run ∧
        Always step (Accounted wireSerialize KeyedTable.empty) begin run := by
  intro ping cfg iteration sent begin run step
  obtain ⟨htrust, hkept⟩ := probes_reach_table wireParse_wireSerialize (show 0 ≤ cfg.maxBufferSize by decide) false "a"
    1024 [] ⟨true, true, true, true⟩ { world := KeyedTable.empty } rfl run
  exact ⟨by decide +kernel, htrust, hkept (by decide +kernel)⟩

end PudimNetMon.Pipeline
