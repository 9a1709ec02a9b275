import PudimNetMon.Lib.Log
import PudimNetMon.Lib.Run

/-!
# The cadence of the cycles (`probe_runner.cpp`)

`RunLoop` as a schedule: each cycle has a time it is due at, starts when that has come, and puts the next one an
interval later; a cycle that ends behind that time moves the schedule to its end. Captures of handshakes have an
interval of their own. The main loop changes both intervals while the runner is going.

- `cadence`: between two cycles lie the intervals of the cycles from the first one on, so late cycles are never caught
  up; cycles that end in time add no drift, and throttled captures keep their distance.
-/

namespace PudimNetMon.Agent.Cadence

/-- What a cycle reads: the steady clock in nanoseconds, at its start, for the throttle and at its end, the two
intervals in milliseconds, and whether its configuration asks for captures. -/
structure Cycle where
  start : Int
  throttleAt : Int
  ended : Int
  intervalMs : Int
  handshakeMs : Int
  capture : Bool

/-- The interval behind a cycle, in nanoseconds: what the loop finds below a tenth of a second it takes as one. -/
def Cycle.interval (c : Cycle) : Int := (if c.intervalMs < 100 then 100 else c.intervalMs) * 1000000

/-- What a cycle leaves in the record of a run. -/
structure Ran where
  /-- When it was due. -/
  due : Int
  start : Int
  ended : Int
  /-- In nanoseconds. -/
  interval : Int
  /-- It ended before the next one was due. -/
  inTime : Bool
  /-- The time and the interval of a throttled turn for captures. -/
  turn : Option (Int × Int)
  /-- `run_handshake` -/
  captures : Bool
  deriving DecidableEq, Repr

structure Runner where
  next : Int
  lastHandshake : Int
  handshakeCycles : UInt64 := 0
  /-- The last reading of the clock. -/
  now : Int
  ran : List Ran := []

/-- `RunLoop` at its start, with its first two readings. -/
def start (next lastHandshake : Int) : Runner := { next, lastHandshake, now := lastHandshake }

/-- The throttle lets a cycle have its turn. -/
def takesTurn (r : Runner) (c : Cycle) : Bool :=
  decide (c.handshakeMs > 0) && !decide (c.throttleAt - r.lastHandshake < c.handshakeMs * 1000000)

/-- Without an interval of their own, captures are made in each cycle. -/
def runHandshake (r : Runner) (c : Cycle) : Bool := c.capture && (!decide (c.handshakeMs > 0) || takesTurn r c)

/-- A cycle of `RunLoop`, once the sleep in front of it is over. -/
def Runner.step (r : Runner) (c : Cycle) : Option Runner :=
  if r.now ≤ c.start ∧ r.next ≤ c.start ∧ c.start ≤ c.throttleAt ∧ c.throttleAt ≤ c.ended then
    some {
      next := if c.ended < r.next + c.interval then r.next + c.interval else c.ended
      lastHandshake := if takesTurn r c then c.throttleAt else r.lastHandshake
      handshakeCycles := if takesTurn r c then r.handshakeCycles + 1 else r.handshakeCycles
      now := c.ended
      ran := r.ran ++ [{
        due := r.next, start := c.start, ended := c.ended, interval := c.interval
        inTime := c.ended < r.next + c.interval
        turn := if takesTurn r c then some (c.throttleAt, c.handshakeMs * 1000000) else none
        captures := runHandshake r c }] }
  else none

/-! ## What the record says -/

/-- The time the intervals of some cycles take. -/
def span : List Ran → Int
  | [] => 0
  | x :: ran => x.interval + span ran

/-- The throttled turns of a record. -/
def turns (ran : List Ran) : List (Int × Int) := ran.filterMap Ran.turn

structure Regular (r : Runner) : Prop where
  /-- No interval is below a tenth of a second, and no cycle starts before it is due. -/
  started : ∀ x ∈ r.ran, 100000000 ≤ x.interval ∧ x.due ≤ x.start ∧ x.start ≤ x.ended
  /-- The next cycle is due when the intervals from any cycle on are over, or later. -/
  noBurst : ∀ front x back, r.ran = front ++ x :: back → x.due + span (x :: back) ≤ r.next
  /-- It is due right then when all cycles from there on ended in time. -/
  noDrift : ∀ front x back, r.ran = front ++ x :: back → (∀ y ∈ x :: back, y.inTime = true) →
    r.next = x.due + span (x :: back)
  /-- Cycles do not overlap. -/
  apart : r.ran.Pairwise fun x y => x.ended ≤ y.start
  /-- Two throttled turns are apart by the interval that the later one has found. -/
  spaced : (turns r.ran).Pairwise fun a b => b.2 ≤ b.1 - a.1
  counted : r.handshakeCycles = UInt64.ofNat (turns r.ran).length

structure Inv (r : Runner) : Prop where
  regular : Regular r
  ended : ∀ x ∈ r.ran, x.ended ≤ r.now
  last : ∀ a ∈ turns r.ran, a.1 ≤ r.lastHandshake

variable {r r' : Runner} {c : Cycle}

theorem span_concat (ran : List Ran) (x : Ran) : span (ran ++ [x]) = span ran + x.interval := by
  induction ran with
  | nil => simp [span]
  | cons y ran ih =>
    rw [List.cons_append, span, ih, span]
    omega

theorem turns_concat (ran : List Ran) (x : Ran) : turns (ran ++ [x]) = turns ran ++ x.turn.toList := by
  cases h : x.turn <;> simp [turns, h]

/-- The schedule behind a cycle. -/
theorem Inv.schedule (h : Inv r) {y : Ran} (hdue : y.due = r.next) (hinterval : y.interval = c.interval)
    (htime : y.inTime = decide (c.ended < r.next + c.interval)) {next : Int}
    (hnext : next = if c.ended < r.next + c.interval then r.next + c.interval else c.ended) :
    (∀ front x back, r.ran ++ [y] = front ++ x :: back → x.due + span (x :: back) ≤ next) ∧
      ∀ front x back, r.ran ++ [y] = front ++ x :: back → (∀ z ∈ x :: back, z.inTime = true) →
        next = x.due + span (x :: back) := by
  have hge : r.next + c.interval ≤ next := by
    rw [hnext]
    split <;> omega
  have heq : y.inTime = true → next = r.next + c.interval := by
    rw [htime, hnext, decide_eq_true_eq]
    exact fun hlt => if_pos hlt
  constructor
  · intro front x back hsplit
    rcases split_snoc hsplit with ⟨-, rfl, rfl⟩ | ⟨back', rfl, hran⟩
    · simp only [span]
      omega
    · have := h.regular.noBurst front x back' hran
      rw [← List.cons_append, span_concat]
      omega
  · intro front x back hsplit hall
    rcases split_snoc hsplit with ⟨-, rfl, rfl⟩ | ⟨back', rfl, hran⟩
    · have := heq (hall x List.mem_cons_self)
      simp only [span]
      omega
    · rw [← List.cons_append] at hall ⊢
      have hold := h.regular.noDrift front x back' hran fun z hz => hall z (List.mem_append_left _ hz)
      have := heq (hall y (by simp))
      rw [span_concat]
      omega

/-- A throttled turn behind the others. -/
theorem Inv.turn (h : Inv r) {time interval : Int} (hpos : 0 < interval)
    (hafter : interval ≤ time - r.lastHandshake) :
    (turns r.ran ++ [(time, interval)]).Pairwise (fun a b => b.2 ≤ b.1 - a.1) ∧
      ∀ a ∈ turns r.ran ++ [(time, interval)], a.1 ≤ time := by
  refine ⟨List.pairwise_append.2 ⟨h.regular.spaced, List.pairwise_singleton .., fun a ha b hb => ?_⟩,
    fun a ha => ?_⟩
  · rw [List.mem_singleton.1 hb]
    have := h.last a ha
    dsimp only
    omega
  · rcases List.mem_append.1 ha with ha | ha
    · have := h.last a ha
      omega
    · cases List.mem_singleton.1 ha
      exact Int.le_refl _

theorem Cycle.interval_ge (c : Cycle) : 100000000 ≤ c.interval := by
  unfold Cycle.interval
  split <;> omega

theorem takesTurn_spec (h : takesTurn r c = true) :
    0 < c.handshakeMs * 1000000 ∧ c.handshakeMs * 1000000 ≤ c.throttleAt - r.lastHandshake := by
  simp only [takesTurn, Bool.and_eq_true, decide_eq_true_eq, Bool.not_eq_true', decide_eq_false_iff_not] at h
  omega

/-- The throttled turns with those of one more cycle. -/
theorem Inv.turns (h : Inv r) {turn : Option (Int × Int)}
    (hturn : turn = if takesTurn r c then some (c.throttleAt, c.handshakeMs * 1000000) else none) :
    (turns r.ran ++ turn.toList).Pairwise (fun a b => b.2 ≤ b.1 - a.1) ∧
      (∀ a ∈ turns r.ran ++ turn.toList, a.1 ≤ if takesTurn r c then c.throttleAt else r.lastHandshake) ∧
      (if takesTurn r c then r.handshakeCycles + 1 else r.handshakeCycles) =
        UInt64.ofNat (turns r.ran ++ turn.toList).length := by
  subst hturn
  have hcounted := h.regular.counted
  cases ht : takesTurn r c with
  | true =>
    have hnew := h.turn (takesTurn_spec ht).1 (takesTurn_spec ht).2
    exact ⟨hnew.1, hnew.2, by simp [hcounted, UInt64.ofNat_add]⟩
  | false =>
    simp only [Bool.false_eq_true, if_false, Option.toList_none, List.append_nil]
    exact ⟨h.regular.spaced, h.last, hcounted⟩

theorem Inv.step (h : Inv r) (hs : r.step c = some r') : Inv r' := by
  unfold Runner.step at hs
  split at hs
  · rename_i hread
    obtain ⟨hnow, hdue, hthrottle, hended⟩ := hread
    cases hs
    have hinterval := c.interval_ge
    have hmem : ∀ {P : Ran → Prop} {y : Ran}, (∀ x ∈ r.ran, P x) → P y → ∀ x ∈ r.ran ++ [y], P x := by
      intro P y hold hy x hx
      rcases List.mem_append.1 hx with hx | hx
      · exact hold x hx
      · rwa [List.mem_singleton.1 hx]
    refine ⟨⟨hmem h.regular.started ⟨hinterval, hdue, by dsimp only; omega⟩, ?_, ?_, ?_, ?_, ?_⟩, ?_, ?_⟩
    · exact (h.schedule rfl rfl rfl rfl).1
    · exact (h.schedule rfl rfl rfl rfl).2
    · refine List.pairwise_append.2 ⟨h.regular.apart, List.pairwise_singleton .., fun x hx y hy => ?_⟩
      rw [List.mem_singleton.1 hy]
      have := h.ended x hx
      dsimp only
      omega
    · rw [turns_concat]
      exact (h.turns rfl).1
    · rw [turns_concat]
      exact (h.turns rfl).2.2
    · refine hmem (fun x hx => ?_) (Int.le_refl _)
      have := h.ended x hx
      dsimp only
      omega
    · rw [turns_concat]
      exact (h.turns rfl).2.1
  · cases hs

theorem inv_start (next lastHandshake : Int) : Inv (start next lastHandshake) where
  regular :=
    { started := nofun
      noBurst := fun front x back hsplit => by simp [start] at hsplit
      noDrift := fun front x back hsplit => by simp [start] at hsplit
      apart := .nil
      spaced := .nil
      counted := rfl }
  ended := nofun
  last := nofun

/-- **Main.** In every run of the loop, however long the cycles take and whatever intervals they find. -/
theorem cadence (next lastHandshake : Int) (cycles : List Cycle) :
    Always Runner.step Regular (start next lastHandshake) cycles :=
  always_of_inv (fun _ _ _ h hs => Inv.step h hs) (fun _ h => Inv.regular h) (inv_start next lastHandshake)

end PudimNetMon.Agent.Cadence
