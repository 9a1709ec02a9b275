/-!
# Receiving with a timeout

What arrives at a receiver, in order of time and finite or endless, and the loop that takes one item after the other
until one stops it or nothing arrives for a timeout, which starts afresh with each item. The loop takes no time itself;
it has fuel, since an endless stream without a gap keeps it forever.

- `gap_of_receiveUntil`: a loop that no item stops ends with the timeout, behind a gap;
- `receiveUntil_of_gap`: it ends behind every gap that starts within the first timeout.
-/

namespace PudimNetMon

/-- What arrives and when, from time zero on. -/
structure Arrivals (α : Type) where
  get : Nat → Option (Nat × α)
  closed : ∀ i, get i = none → get (i + 1) = none
  sorted : ∀ i t x u y, get i = some (t, x) → get (i + 1) = some (u, y) → t ≤ u

namespace Arrivals

variable {α : Type} (s : Arrivals α) (stop : α → Bool) (timeout : Nat)

/-- One receive at time `now`, with the time at which it is over. -/
def receive (i now : Nat) : Option α × Nat :=
  match s.get i with
  | some (t, x) => if t ≤ now + timeout then (some x, max now t) else (none, now + timeout)
  | none => (none, now + timeout)

/-- The item that stops the loop, or none at a timeout, and the time of its end. -/
def receiveUntil : Nat → Nat → Nat → Option (Option α × Nat)
  | 0, _, _ => none
  | fuel + 1, i, now =>
    match s.receive timeout i now with
    | (none, t) => some (none, t)
    | (some x, t) => if stop x then some (some x, t) else receiveUntil fuel (i + 1) t

/-- When the last of the first `i` items arrived, time zero in front of all; none when there are not so many. -/
def lastBefore : Nat → Option Nat
  | 0 => some 0
  | i + 1 => (s.get i).map Prod.fst

/-- Nothing arrives in a timeout from time `t` on, `i` items having arrived. -/
def Gap (i t : Nat) : Prop := ∀ u x, s.get i = some (u, x) → t + timeout < u

variable {s stop timeout} {i j t u : Nat}

theorem lastBefore_succ (h : s.lastBefore (i + 1) = some u) :
    ∃ t x, s.lastBefore i = some t ∧ t ≤ u ∧ s.get i = some (u, x) := by
  obtain ⟨⟨u', x⟩, hx, rfl⟩ := Option.map_eq_some_iff.1 h
  cases i with
  | zero => exact ⟨0, x, rfl, Nat.zero_le _, hx⟩
  | succ i =>
    cases hget : s.get i with
    | none =>
      rw [s.closed i hget] at hx
      cases hx
    | some p => exact ⟨p.1, x, by rw [lastBefore, hget]; rfl, s.sorted i p.1 p.2 u' x hget hx, hx⟩

theorem lastBefore_mono (hij : i ≤ j) (hj : s.lastBefore j = some u) : ∃ t, s.lastBefore i = some t ∧ t ≤ u := by
  induction hij generalizing u with
  | refl => exact ⟨u, hj, Nat.le_refl _⟩
  | step _ ih =>
    obtain ⟨t, x, ht, htu, -⟩ := lastBefore_succ hj
    obtain ⟨v, hv, hvt⟩ := ih ht
    exact ⟨v, hv, Nat.le_trans hvt htu⟩

/-- In front of a gap a receive runs into the timeout. -/
theorem receive_of_gap (h : s.Gap timeout i t) : s.receive timeout i t = (none, t + timeout) := by
  unfold receive
  cases hget : s.get i with
  | none => rfl
  | some p =>
    have hlt := h p.1 p.2 hget
    exact if_neg (by omega)

/-- Else it takes the next item, when that arrives. -/
theorem receive_of_not_gap (ht : s.lastBefore i = some t) (h : ¬ s.Gap timeout i t) :
    ∃ u x, s.get i = some (u, x) ∧ s.lastBefore (i + 1) = some u ∧ s.receive timeout i t = (some x, u) := by
  unfold Gap at h
  simp only [Classical.not_forall] at h
  obtain ⟨u, x, hget, hle⟩ := h
  have hnext : s.lastBefore (i + 1) = some u := by simp [lastBefore, hget]
  obtain ⟨t', x', ht', htu, -⟩ := lastBefore_succ hnext
  cases ht.symm.trans ht'
  refine ⟨u, x, hget, hnext, ?_⟩
  simp only [receive, hget, if_pos (Nat.le_of_not_lt hle), Nat.max_eq_right htu]

variable (hstop : ∀ i t x, s.get i = some (t, x) → stop x = false)

include hstop

theorem gap_of_receiveUntil {fuel : Nat} {r : Option α} (ht : s.lastBefore i = some t)
    (h : s.receiveUntil stop timeout fuel i t = some (r, u)) :
    ∃ j v, s.lastBefore j = some v ∧ s.Gap timeout j v ∧ u = v + timeout := by
  induction fuel generalizing i t with
  | zero => cases h
  | succ fuel ih =>
    by_cases hgap : s.Gap timeout i t
    · rw [receiveUntil, receive_of_gap hgap] at h
      cases h
      exact ⟨i, t, ht, hgap, rfl⟩
    · obtain ⟨v, x, hget, hv, hreceive⟩ := receive_of_not_gap ht hgap
      rw [receiveUntil, hreceive] at h
      dsimp only at h
      rw [hstop i v x hget, if_neg (by decide)] at h
      exact ih hv h

theorem receiveUntil_of_gap (hj : s.lastBefore j = some u) (hu : u ≤ timeout) (hgap : s.Gap timeout j u) :
    ∃ fuel, s.receiveUntil stop timeout fuel 0 0 = some (none, u + timeout) := by
  -- from every item in front of the gap, backwards
  have hfrom : ∀ n i t, i + n = j → s.lastBefore i = some t →
      s.receiveUntil stop timeout (n + 1) i t = some (none, u + timeout) := by
    intro n
    induction n with
    | zero =>
      intro i t hi ht
      obtain rfl : i = j := hi
      cases ht.symm.trans hj
      rw [receiveUntil, receive_of_gap hgap]
    | succ n ih =>
      intro i t hi ht
      have hopen : ¬ s.Gap timeout i t := by
        obtain ⟨v, hv, hvu⟩ := lastBefore_mono (show i + 1 ≤ j by omega) hj
        obtain ⟨-, x, -, -, hget⟩ := lastBefore_succ hv
        intro hg
        have hlt := hg v x hget
        omega
      obtain ⟨v, x, hget, hv, hreceive⟩ := receive_of_not_gap ht hopen
      rw [receiveUntil, hreceive]
      dsimp only
      rw [hstop i v x hget, if_neg (by decide)]
      exact ih (i + 1) v (by omega) hv
  exact ⟨j + 1, hfrom j 0 0 (Nat.zero_add j) rfl⟩

end Arrivals

end PudimNetMon
