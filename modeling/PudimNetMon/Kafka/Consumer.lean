import Mathlib.Logic.Function.Basic
import PudimNetMon.Lib.Run
import PudimNetMon.Metric

/-!
# `ConsumeLoop` (`consumer_common.cpp`)

One consumer over any number of partitions, each an endless sequence of messages of which a run sees a prefix. The
loop receives a message, handles it and commits, as three events, so that a crash or a rebalance may fall between any
two; both set positions back to the committed offset. `outcome` records the last result of the handler.

- `committed_safe_iff`: no commit passes a failed message exactly when every commit finds no failed message between
  the committed offset and its own.
-/

namespace PudimNetMon.Kafka

/-- A message; a null or empty payload is none. -/
structure Message (Payload : Type) where
  payload : Option Payload
  deriving DecidableEq

structure ConsumerStats where
  messagesReceived : Nat := 0
  batchesProcessed : Nat := 0
  parseErrors : Nat := 0
  handlerErrors : Nat := 0
  consumerErrors : Nat := 0
  deriving DecidableEq, Repr

/-- Where the loop stands, with the partition and the offset of its message. -/
inductive Pc
  | polling
  | received (p o : Nat)
  | committing (p o : Nat)
  deriving DecidableEq, Repr

structure State where
  committed : Nat → Nat
  position : Nat → Nat
  pc : Pc := .polling
  stats : ConsumerStats := { }
  /-- The last result of the handler for a message, if it ever returned. -/
  outcome : Nat → Nat → Option Bool := fun _ _ => none

inductive Event
  /-- `consume` delivers the next message of a partition. -/
  | consume (p : Nat)
  /-- `consume` delivers none; `error` is not an end of partition or a timeout. -/
  | noMessage (error : Bool)
  /-- The message is parsed and handled; `ok` is the handler's result if it is called. -/
  | handle (ok : Bool)
  /-- `commitSync`; its own result is ignored. -/
  | commit (ok : Bool)
  /-- A crash or a stop, and a new process. -/
  | restart
  /-- The partition is taken away and assigned again. -/
  | rebalance (p : Nat)
  deriving DecidableEq, Repr

/-- The message belongs to the partition. -/
def Pc.on (pc : Pc) (p : Nat) : Bool :=
  match pc with
  | .polling => false
  | .received q _ | .committing q _ => q == p

section

variable {Payload : Type} (parse : Payload → Option MetricsBatch) (log : Nat → Nat → Message Payload)

/-- The batch of a well-formed message. -/
def batchAt (p o : Nat) : Option MetricsBatch := (log p o).payload.bind parse

/-- The body of the loop behind `consume`, up to the commit. -/
def handleMessage (s : State) (p o : Nat) (ok : Bool) : State :=
  let stats := { s.stats with messagesReceived := s.stats.messagesReceived + 1 }
  match batchAt parse log p o with
  | none => { s with stats := { stats with parseErrors := stats.parseErrors + 1 }, pc := .committing p o }
  | some _ =>
    let outcome := Function.update s.outcome p (Function.update (s.outcome p) o (some ok))
    if ok then
      { s with stats := { stats with batchesProcessed := stats.batchesProcessed + 1 }, pc := .committing p o,
               outcome := outcome }
    else { s with stats := { stats with handlerErrors := stats.handlerErrors + 1 }, pc := .polling, outcome := outcome }

def step (s : State) : Event → Option State
  | .consume p =>
    if s.pc = .polling then
      some { s with pc := .received p (s.position p),
                    position := Function.update s.position p (s.position p + 1) }
    else none
  | .noMessage error =>
    if s.pc = .polling then
      some (if error then { s with stats := { s.stats with consumerErrors := s.stats.consumerErrors + 1 } } else s)
    else none
  | .handle ok =>
    match s.pc with
    | .received p o => some (handleMessage parse log s p o ok)
    | _ => none
  | .commit ok =>
    match s.pc with
    | .committing p o =>
      some { s with pc := .polling, committed := if ok then Function.update s.committed p (o + 1) else s.committed }
    | _ => none
  | .restart => some { s with pc := .polling, position := s.committed, stats := { } }
  | .rebalance p =>
    some { s with pc := if s.pc.on p then .polling else s.pc,
                  position := Function.update s.position p (s.committed p) }

/-- A group that starts at the given offsets. -/
def start (offsets : Nat → Nat) : State := { committed := offsets, position := offsets }

/-- No well-formed message behind the committed offset is without a success: its handler returned, and returned true
last. -/
def Safe (offsets : Nat → Nat) (s : State) : Prop :=
  ∀ p o, offsets p ≤ o → o < s.committed p → (batchAt parse log p o).isSome → s.outcome p o = some true

/-- A commit that takes effect finds no message that failed last between the committed offset and its own. -/
def CommitMeetsNoFailure (s : State) : Event → Prop
  | .commit true => ∀ p o, s.pc = .committing p o → ∀ o', s.committed p ≤ o' → o' < o → s.outcome p o' ≠ some false
  | _ => True

instance (s : State) : ∀ e, Decidable (CommitMeetsNoFailure s e)
  | .commit true =>
    match hpc : s.pc with
    | .committing p o =>
      decidable_of_iff (∀ o' < o, s.committed p ≤ o' → s.outcome p o' ≠ some false) (by
        constructor
        · intro h q r hq o' hc ho
          cases hpc.symm.trans hq
          exact h o' ho hc
        · exact fun h o' ho hc => h p o hpc o' hc ho)
    | .polling => .isTrue fun p o h => nomatch hpc.symm.trans h
    | .received _ _ => .isTrue fun p o h => nomatch hpc.symm.trans h
  | .consume _ | .noMessage _ | .handle _ | .commit false | .restart | .rebalance _ => .isTrue trivial

/-! ## What the loop keeps -/

/-- Behind the position every well-formed message from the committed offset on has an outcome, except the one in the
loop's hands; that one is the last delivered of its partition. -/
structure Inv (offsets : Nat → Nat) (s : State) : Prop where
  start_le : ∀ p, offsets p ≤ s.committed p
  committed_le : ∀ p, s.committed p ≤ s.position p
  received : ∀ p o, s.pc = .received p o → s.position p = o + 1 ∧ s.committed p ≤ o
  committing : ∀ p o, s.pc = .committing p o → s.position p = o + 1 ∧ s.committed p ≤ o ∧
    ((batchAt parse log p o).isSome → s.outcome p o = some true)
  handled : ∀ p o, s.committed p ≤ o → o < s.position p → s.pc ≠ .received p o →
    (batchAt parse log p o).isSome → s.outcome p o ≠ none
  malformed : ∀ p o, batchAt parse log p o = none → s.outcome p o = none

variable {parse log} {offsets : Nat → Nat} {s s' : State}

theorem inv_start (offsets : Nat → Nat) : Inv parse log offsets (start offsets) where
  start_le _ := Nat.le_refl _
  committed_le _ := Nat.le_refl _
  received _ _ h := nomatch h
  committing _ _ h := nomatch h
  handled _ _ h h' := absurd h' (Nat.not_lt.2 h)
  malformed _ _ _ := rfl

/-- The handler's result is recorded for its message and no other. -/
theorem update_outcome (s : State) (p o q r : Nat) (v : Option Bool) :
    Function.update s.outcome p (Function.update (s.outcome p) o v) q r =
      if q = p ∧ r = o then v else s.outcome q r := by
  by_cases hq : q = p
  · subst hq
    by_cases hr : r = o <;> simp [hr]
  · simp [hq]

/-- What handling a message does: a malformed one is committed unhandled, a failed one is not committed. -/
theorem handleMessage_spec (parse : Payload → Option MetricsBatch) (log : Nat → Nat → Message Payload) (s : State)
    (p o : Nat) (ok : Bool) :
    let t := handleMessage parse log s p o ok
    t.committed = s.committed ∧ t.position = s.position ∧
      ((batchAt parse log p o = none ∧ t.pc = .committing p o ∧ t.outcome = s.outcome) ∨
        ((batchAt parse log p o).isSome ∧ t.pc = (if ok then .committing p o else .polling) ∧
          ∀ q r, t.outcome q r = if q = p ∧ r = o then some ok else s.outcome q r)) := by
  intro t
  cases hb : batchAt parse log p o with
  | none => simp [t, handleMessage, hb]
  | some b => cases ok <;> simp [t, handleMessage, hb, update_outcome]

/-- Handling the message in hand keeps the invariant. -/
theorem Inv.handleMessage {p o : Nat} (h : Inv parse log offsets s) (hpc : s.pc = .received p o) (ok : Bool) :
    Inv parse log offsets (handleMessage parse log s p o ok) := by
  obtain ⟨hc, hp, hcase⟩ := handleMessage_spec parse log s p o ok
  obtain ⟨hpos, hle⟩ := h.received p o hpc
  -- the other delivered messages were handled before
  have hother : ∀ q r, s.committed q ≤ r → r < s.position q → ¬(q = p ∧ r = o) → (batchAt parse log q r).isSome →
      s.outcome q r ≠ none := by
    intro q r hcr hrp hne
    refine h.handled q r hcr hrp fun he => hne ?_
    rw [hpc] at he
    injection he with hq hr
    exact ⟨hq.symm, hr.symm⟩
  rcases hcase with ⟨hnone, htpc, hout⟩ | ⟨hsome, htpc, hout⟩
  · constructor
    · rw [hc]; exact h.start_le
    · rw [hc, hp]; exact h.committed_le
    · intro q r hq
      rw [htpc] at hq
      cases hq
    · intro q r hq
      rw [htpc] at hq
      cases hq
      rw [hp, hc]
      exact ⟨hpos, hle, fun hs => by simp [hnone] at hs⟩
    · intro q r hcr hrp _ hs
      rw [hc] at hcr
      rw [hp] at hrp
      rw [hout]
      refine hother q r hcr hrp ?_ hs
      rintro ⟨rfl, rfl⟩
      simp [hnone] at hs
    · rw [hout]; exact h.malformed
  · constructor
    · rw [hc]; exact h.start_le
    · rw [hc, hp]; exact h.committed_le
    · intro q r hq
      rw [htpc] at hq
      cases ok <;> cases hq
    · intro q r hq
      rw [htpc] at hq
      cases ok with
      | false => cases hq
      | true =>
        cases hq
        rw [hp, hc]
        exact ⟨hpos, hle, fun _ => by rw [hout, if_pos ⟨rfl, rfl⟩]⟩
    · intro q r hcr hrp _ hs
      rw [hc] at hcr
      rw [hp] at hrp
      rw [hout]
      split
      · simp
      · rename_i hne
        exact hother q r hcr hrp hne hs
    · intro q r hn
      rw [hout, if_neg]
      · exact h.malformed q r hn
      · rintro ⟨rfl, rfl⟩
        simp [hn] at hsome

/-- The loop takes the next message of a partition. -/
theorem Inv.consume {p : Nat} (h : Inv parse log offsets s) (hpc : s.pc = .polling) :
    Inv parse log offsets { s with
      pc := .received p (s.position p), position := Function.update s.position p (s.position p + 1) } := by
  refine ⟨h.start_le, fun q => ?_, fun q r hq => ?_, nofun, fun q r hcr hrp hne hb => ?_, h.malformed⟩
  · by_cases hq : q = p
    · subst hq
      simpa using Nat.le_succ_of_le (h.committed_le q)
    · simpa [hq] using h.committed_le q
  · injection hq with hqp hro
    subst hqp hro
    exact ⟨by simp, h.committed_le p⟩
  · -- the new message is the one in hand
    refine h.handled q r hcr ?_ (by rw [hpc]; exact fun he => nomatch he) hb
    by_cases hq : q = p
    · subst hq
      simp only [Function.update_self] at hrp
      have hnew : r ≠ s.position q := fun e => hne (by rw [e])
      omega
    · simpa [hq] using hrp

/-- A commit moves the committed offset to the position, or fails. -/
theorem Inv.commit {p o : Nat} (h : Inv parse log offsets s) (hpc : s.pc = .committing p o) (ok : Bool) :
    Inv parse log offsets { s with
      pc := .polling, committed := if ok then Function.update s.committed p (o + 1) else s.committed } := by
  obtain ⟨hpos, hle, -⟩ := h.committing p o hpc
  have hnot : ∀ q r, s.pc ≠ .received q r := fun q r he => by rw [hpc] at he; cases he
  cases ok with
  | false =>
    exact ⟨h.start_le, h.committed_le, nofun, nofun, fun q r hcr hrp _ hb => h.handled q r hcr hrp (hnot q r) hb,
      h.malformed⟩
  | true =>
    refine ⟨fun q => ?_, fun q => ?_, nofun, nofun, fun q r hcr hrp _ hb => ?_, h.malformed⟩
    · by_cases hq : q = p
      · subst hq
        simpa using Nat.le_succ_of_le ((h.start_le q).trans hle)
      · simpa [hq] using h.start_le q
    · by_cases hq : q = p
      · subst hq
        simp [hpos]
      · simpa [hq] using h.committed_le q
    · by_cases hq : q = p
      · subst hq
        simp only [if_true, Function.update_self] at hcr
        simp only [hpos] at hrp
        omega
      · exact h.handled q r (by simpa [hq] using hcr) hrp (hnot q r) hb

/-- A partition that was taken away starts again at its committed offset, and its message is dropped. -/
theorem Inv.rebalance (h : Inv parse log offsets s) (p : Nat) :
    Inv parse log offsets { s with
      pc := if s.pc.on p then .polling else s.pc, position := Function.update s.position p (s.committed p) } := by
  have hkept : ∀ {pc : Pc}, (if s.pc.on p then .polling else s.pc) = pc → pc ≠ .polling →
      s.pc = pc ∧ s.pc.on p = false := by
    intro pc hpc hne
    split at hpc
    · exact absurd hpc.symm hne
    · rename_i hon
      exact ⟨hpc, by simpa using hon⟩
  have hposition : ∀ {q}, s.pc.on p = false → s.pc.on q = true →
      Function.update s.position p (s.committed p) q = s.position q := by
    intro q hp hq
    rw [Function.update_of_ne]
    rintro rfl
    rw [hp] at hq
    cases hq
  refine ⟨h.start_le, fun q => ?_, fun q r hq => ?_, fun q r hq => ?_, fun q r hcr hrp hne hb => ?_, h.malformed⟩
  · by_cases hq : q = p
    · subst hq
      simp
    · simpa [hq] using h.committed_le q
  · obtain ⟨hpc, hon⟩ := hkept hq nofun
    have hq : s.pc.on q = true := by rw [hpc]; exact beq_self_eq_true q
    simpa only [hposition hon hq] using h.received q r hpc
  · obtain ⟨hpc, hon⟩ := hkept hq nofun
    have hq : s.pc.on q = true := by rw [hpc]; exact beq_self_eq_true q
    simpa only [hposition hon hq] using h.committing q r hpc
  · by_cases hq : q = p
    · subst hq
      simp only [Function.update_self] at hrp
      exact absurd hrp (Nat.not_lt.2 hcr)
    · refine h.handled q r hcr (by simpa [hq] using hrp) (fun he => hne ?_) hb
      have hon : s.pc.on p = false := by
        rw [he]
        simpa [Pc.on] using hq
      rw [hon]
      exact he

/-- **Invariant.** Every event keeps it. -/
theorem inv_step : ∀ (s : State) (e : Event) (s' : State), Inv parse log offsets s → step parse log s e = some s' →
    Inv parse log offsets s'
  | s, .consume p, s', h, hs => by
    simp only [step] at hs
    split at hs
    · rename_i hpc
      cases hs
      exact h.consume hpc
    · cases hs
  | s, .noMessage error, s', h, hs => by
    simp only [step] at hs
    split at hs
    · cases hs
      cases error
      · exact h
      · exact ⟨h.start_le, h.committed_le, h.received, h.committing, h.handled, h.malformed⟩
    · cases hs
  | s, .handle ok, s', h, hs => by
    simp only [step] at hs
    split at hs
    · rename_i hpc
      cases hs
      exact h.handleMessage hpc ok
    · cases hs
  | s, .commit ok, s', h, hs => by
    simp only [step] at hs
    split at hs
    · rename_i p o hpc
      cases hs
      exact h.commit hpc ok
    · cases hs
  | s, .restart, s', h, hs => by
    cases hs
    exact ⟨h.start_le, fun _ => Nat.le_refl _, nofun, nofun,
      fun q r hcr hrp => absurd hrp (Nat.not_lt.2 hcr), h.malformed⟩
  | s, .rebalance p, s', h, hs => by
    cases hs
    exact h.rebalance p

/-! ## What a commit passes -/

/-- A commit that takes effect is safe exactly when it passes no failed message. -/
theorem safe_commit {p o : Nat} (h : Inv parse log offsets s) (hpc : s.pc = .committing p o)
    (hsafe : Safe parse log offsets s) :
    Safe parse log offsets { s with pc := .polling, committed := Function.update s.committed p (o + 1) } ↔
      ∀ o', s.committed p ≤ o' → o' < o → s.outcome p o' ≠ some false := by
  obtain ⟨hpos, hle, hdone⟩ := h.committing p o hpc
  constructor
  · intro hnew o' hc ho hfail
    cases hb : (batchAt parse log p o').isSome with
    | false => simp [h.malformed p o' (by simpa using hb)] at hfail
    | true =>
      have htrue := hnew p o' ((h.start_le p).trans hc) (by simp; omega) hb
      rw [show s.outcome p o' = some true from htrue] at hfail
      cases hfail
  · intro hpass q r hstart hr hb
    by_cases hq : q = p
    · subst hq
      simp only [Function.update_self] at hr
      by_cases hold : r < s.committed q
      · exact hsafe q r hstart hold hb
      by_cases hro : r = o
      · subst hro
        exact hdone hb
      -- delivered since the position was last set to the committed offset, and not the message in hand
      have hsome := h.handled q r (by omega) (by omega) (by rw [hpc]; nofun) hb
      have hne := hpass r (by omega) (by omega)
      cases hout : s.outcome q r with
      | none => exact absurd hout hsome
      | some ok =>
        cases ok with
        | false => exact absurd hout hne
        | true => rfl
    · exact hsafe q r hstart (by simpa [hq] using hr) hb

/-- One event: only a commit can pass a failed message. -/
theorem safe_step : ∀ (s : State) (e : Event) (s' : State), Inv parse log offsets s → Safe parse log offsets s →
    step parse log s e = some s' → (Safe parse log offsets s' ↔ CommitMeetsNoFailure s e)
  | s, .consume p, s', h, hsafe, hs => by
    simp only [step] at hs
    split at hs
    · cases hs
      exact iff_of_true hsafe trivial
    · cases hs
  | s, .noMessage error, s', h, hsafe, hs => by
    simp only [step] at hs
    split at hs
    · cases hs
      cases error <;> exact iff_of_true hsafe trivial
    · cases hs
  | s, .handle ok, s', h, hsafe, hs => by
    simp only [step] at hs
    split at hs
    · rename_i p o hpc
      cases hs
      refine iff_of_true (fun q r hstart hr hb => ?_) trivial
      obtain ⟨hc, -, hcase⟩ := handleMessage_spec parse log s p o ok
      rw [hc] at hr
      rcases hcase with ⟨-, -, hout⟩ | ⟨-, -, hout⟩
      · rw [hout]
        exact hsafe q r hstart hr hb
      · rw [hout, if_neg]
        · exact hsafe q r hstart hr hb
        · -- the message in hand is not behind the committed offset
          rintro ⟨rfl, rfl⟩
          exact absurd hr (Nat.not_lt.2 (h.received q r hpc).2)
    · cases hs
  | s, .commit ok, s', h, hsafe, hs => by
    simp only [step] at hs
    split at hs
    · rename_i p o hpc
      cases hs
      cases ok with
      | false => exact iff_of_true hsafe trivial
      | true =>
        rw [if_pos rfl, safe_commit h hpc hsafe]
        constructor
        · intro hpass q r hq
          rw [hpc] at hq
          cases hq
          exact hpass
        · exact fun hg => hg p o hpc
    · cases hs
  | s, .restart, s', h, hsafe, hs => by
    cases hs
    exact iff_of_true hsafe trivial
  | s, .rebalance p, s', h, hsafe, hs => by
    cases hs
    exact iff_of_true hsafe trivial

/-- **At least once.** Over any run of deliveries, results, commits, restarts and rebalances, the committed offset has
passed only messages that were handled successfully exactly when no commit that takes effect finds a failed message
between the committed offset and its own. -/
theorem committed_safe_iff (parse : Payload → Option MetricsBatch) (log : Nat → Nat → Message Payload)
    (offsets : Nat → Nat) (events : List Event) :
    Always (step parse log) (Safe parse log offsets) (start offsets) events ↔
      Guarded (step parse log) CommitMeetsNoFailure (start offsets) events :=
  always_iff_guarded inv_step safe_step (inv_start offsets) fun _ _ h h' => absurd h' (Nat.not_lt.2 h)

end

/-- The first message fails, the second succeeds: the commit of the second passes the first. -/
theorem second_commit_passes_failed :
    let log : Nat → Nat → Message MetricsBatch := fun _ _ => ⟨some { agentId := "agent-a" }⟩
    let events : List Event := [.consume 0, .handle false, .consume 0, .handle true, .commit true]
    ((runEvents (step some log) (start fun _ => 0) events).map fun s =>
        (s.committed 0, s.outcome 0 0, s.outcome 0 1)) = some (2, some false, some true) ∧
      ¬ Always (step some log) (Safe some log fun _ => 0) (start fun _ => 0) events := by
  intro log events
  refine ⟨rfl, fun h => ?_⟩
  have hsafe : Safe some log (fun _ => 0) ((runEvents (step some log) (start fun _ => 0) events).get rfl) :=
    h.last (Option.some_get rfl).symm
  exact absurd (hsafe 0 0 (Nat.le_refl _) (by decide) rfl) (by decide)

end PudimNetMon.Kafka
