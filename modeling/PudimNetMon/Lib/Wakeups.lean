import Mathlib.Algebra.BigOperators.Group.Finset.Basic
import Mathlib.Algebra.Order.BigOperators.Group.Finset
import Mathlib.Algebra.Ring.Nat
import Mathlib.Data.Nat.Cast.Basic
import Mathlib.Data.Fintype.Basic

/-!
# Workers that sleep on a condition variable

Workers serve a queue and sleep while it is empty. Who adds an item notifies one sleeper afterwards, outside the lock,
so that other steps come between the two; sleepers may wake without a notification.

- `weigh_update`: a sum over all workers when one of them changes;
- `Covered`: unless nobody sleeps, there is a notification on its way or a worker awake for each queued item. The
  rules below keep it; `Covered.served` says what it is for.
-/

namespace PudimNetMon

variable {ι β M : Type} [Fintype ι]

/-- The weights of all workers. -/
def weigh [AddCommMonoid M] (g : β → M) (f : ι → β) : M := ∑ w, g (f w)

theorem weigh_update [DecidableEq ι] [AddCommMonoid M] (g : β → M) (f : ι → β) (w : ι) (x : β) :
    weigh g (Function.update f w x) + g (f w) = weigh g f + g x := by
  have hold := Finset.sum_erase_add Finset.univ (fun v => g (f v)) (Finset.mem_univ w)
  have hnew := Finset.sum_erase_add Finset.univ (fun v => g (Function.update f w x v)) (Finset.mem_univ w)
  have hsame : (∑ v ∈ Finset.univ.erase w, g (Function.update f w x v)) = ∑ v ∈ Finset.univ.erase w, g (f v) :=
    Finset.sum_congr rfl fun v hv => by rw [Function.update_of_ne (Finset.ne_of_mem_erase hv)]
  rw [hsame, Function.update_self] at hnew
  rw [weigh, weigh, ← hold, ← hnew, add_right_comm]

theorem weigh_le {g : β → Nat} {n : Nat} (h : ∀ x, g x ≤ n) (f : ι → β) : weigh g f ≤ Fintype.card ι * n := by
  have hsum := Finset.sum_le_card_nsmul Finset.univ (fun w => g (f w)) n fun w _ => h (f w)
  rw [Finset.card_univ, nsmul_eq_mul, Nat.cast_id] at hsum
  exact hsum

/-- Where a worker stands. -/
inductive Stage
  | asleep
  /-- Between the end of its wait and its next look at the queue. -/
  | awake
  | busy
  | gone
  deriving DecidableEq, Repr

/-- The workers that look at the queue next. -/
def awakeCount (stage : ι → Stage) : Nat := weigh (fun x => if x = .awake then 1 else 0) stage

/-- With the number of queued items and that of notifications on their way. -/
def Covered (queued owed : Nat) (stage : ι → Stage) : Prop :=
  (∀ w, stage w ≠ .asleep) ∨ queued ≤ owed + awakeCount stage

variable {queued owed : Nat} {stage : ι → Stage}

theorem Covered.add (h : Covered queued owed stage) : Covered (queued + 1) (owed + 1) stage := by
  rcases h with h | h
  · exact .inl h
  · right
    omega

/-- An item that no notification is on its way for finds a worker awake, unless nobody sleeps at all. -/
theorem Covered.served (h : Covered queued 0 stage) (hpos : 0 < queued) :
    (∃ w, stage w = .awake) ∨ ∀ w, stage w ≠ .asleep := by
  rcases h with h | h
  · exact .inr h
  · left
    have hawake : weigh (fun x => if x = Stage.awake then 1 else 0) stage ≠ 0 := by
      unfold awakeCount at h
      omega
    obtain ⟨w, -, hw⟩ := Finset.exists_ne_zero_of_sum_ne_zero hawake
    exact ⟨w, by simpa using hw⟩

section

variable [DecidableEq ι] {w : ι}

omit [Fintype ι] in
theorem not_asleep_update (h : ∀ v, stage v ≠ .asleep) {x : Stage} (hx : x ≠ .asleep) (w v : ι) :
    Function.update stage w x v ≠ .asleep := by
  rw [Function.update_apply]
  split
  · exact hx
  · exact h v

/-- A sleeper wakes, by a notification or without one. -/
theorem Covered.wake (h : Covered queued owed stage) (hw : stage w = .asleep) {owed' : Nat} (howed : owed ≤ owed' + 1) :
    Covered queued owed' (Function.update stage w .awake) := by
  have hsum := weigh_update (fun x => if x = Stage.awake then 1 else 0) stage w .awake
  rw [hw] at hsum
  rcases h with h | h
  · exact absurd hw (h w)
  · right
    simp only [awakeCount] at h ⊢
    simp only [reduceCtorEq, if_false, if_true] at hsum
    omega

/-- A worker takes an item, or drops it and leaves. -/
theorem Covered.take (h : Covered (queued + 1) owed stage) (hw : stage w = .awake) {x : Stage} (hx : x ≠ .asleep) :
    Covered queued owed (Function.update stage w x) := by
  have hsum := weigh_update (fun x => if x = Stage.awake then 1 else 0) stage w x
  rw [hw] at hsum
  rcases h with h | h
  · exact .inl (not_asleep_update h hx w)
  · right
    simp only [awakeCount] at h ⊢
    simp only [if_true] at hsum
    omega

/-- A worker is done with its item, or goes on with it. -/
theorem Covered.move (h : Covered queued owed stage) (hw : stage w ≠ .awake) {x : Stage} (hx : x ≠ .asleep) :
    Covered queued owed (Function.update stage w x) := by
  have hsum := weigh_update (fun x => if x = Stage.awake then 1 else 0) stage w x
  rcases h with h | h
  · exact .inl (not_asleep_update h hx w)
  · right
    simp only [awakeCount] at h ⊢
    simp only [if_neg hw] at hsum
    omega

end

end PudimNetMon
