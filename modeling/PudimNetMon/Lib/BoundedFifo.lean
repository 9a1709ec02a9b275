import Mathlib.Algebra.Order.BigOperators.Group.List
import Mathlib.Algebra.Ring.Int.Defs
import Mathlib.Algebra.Ring.Nat

/-!
# A first-in-first-out list with a bounded weight

Items have a weight, and the list has a cap on its total. `excess` is the length of the shortest prefix that has to go
for the rest to be within the cap.

- `total_within_le`, `lt_total_drop`: the rest is within the cap, and no shorter prefix does it.
-/

namespace PudimNetMon.BoundedFifo

variable {α : Type} (weight : α → Nat)

def total (xs : List α) : Nat := (xs.map weight).sum

/-- The length of the shortest prefix whose removal brings the total within the cap. -/
def excess (cap : Nat) : List α → Nat
  | [] => 0
  | x :: xs => if total weight (x :: xs) ≤ cap then 0 else excess cap xs + 1

/-- The list without the prefix. -/
def within (cap : Nat) (xs : List α) : List α := xs.drop (excess weight cap xs)

/-- Whether an item fits behind the list within the cap, and the list afterwards. -/
def push (cap : Nat) (x : α) (xs : List α) : Bool × List α :=
  if total weight (within weight cap xs) + weight x ≤ cap then (true, within weight cap xs ++ [x])
  else (false, within weight cap xs)

variable {weight} {cap : Nat} {xs : List α}

@[simp] theorem total_nil : total weight [] = 0 := rfl

@[simp] theorem total_cons (x : α) (xs : List α) : total weight (x :: xs) = weight x + total weight xs := by
  simp [total]

@[simp] theorem total_append (xs ys : List α) : total weight (xs ++ ys) = total weight xs + total weight ys := by
  simp [total]

theorem total_take_add_drop (k : Nat) (xs : List α) :
    total weight (xs.take k) + total weight (xs.drop k) = total weight xs := by
  rw [← total_append, List.take_append_drop]

/-- Items of bounded weight have a bounded total. -/
theorem total_le {n : Nat} (h : ∀ x ∈ xs, weight x ≤ n) : total weight xs ≤ xs.length * n := by
  induction xs with
  | nil => simp
  | cons x xs ih =>
    have hx := h x List.mem_cons_self
    have hxs := ih fun y hy => h y (List.mem_cons_of_mem _ hy)
    rw [total_cons, List.length_cons, Nat.succ_mul]
    omega

theorem excess_le_length : excess weight cap xs ≤ xs.length := by
  induction xs with
  | nil => exact Nat.le_refl _
  | cons x xs ih =>
    unfold excess
    split
    · exact Nat.zero_le _
    · exact Nat.succ_le_succ ih

/-- A list within the cap keeps everything. -/
theorem excess_eq_zero (h : total weight xs ≤ cap) : excess weight cap xs = 0 := by
  cases xs with
  | nil => rfl
  | cons x xs => exact if_pos h

theorem length_within_le : (within weight cap xs).length ≤ xs.length := by
  rw [within, List.length_drop]
  omega

/-- **Within the cap.** -/
theorem total_within_le : total weight (within weight cap xs) ≤ cap := by
  induction xs with
  | nil => exact Nat.zero_le _
  | cons x xs ih =>
    unfold within excess
    split
    · assumption
    · exact ih

/-- **The shortest prefix.** -/
theorem lt_total_drop {k : Nat} (h : k < excess weight cap xs) : cap < total weight (xs.drop k) := by
  induction xs generalizing k with
  | nil => cases h
  | cons x xs ih =>
    unfold excess at h
    split at h
    · cases h
    · rename_i hcap
      cases k with
      | zero => exact Nat.not_le.1 hcap
      | succ k => exact ih (Nat.lt_of_succ_lt_succ h)

theorem push_of_fits {x : α} (h : total weight (within weight cap xs) + weight x ≤ cap) :
    push weight cap x xs = (true, within weight cap xs ++ [x]) := if_pos h

theorem push_of_full {x : α} (h : ¬total weight (within weight cap xs) + weight x ≤ cap) :
    push weight cap x xs = (false, within weight cap xs) := if_neg h

end PudimNetMon.BoundedFifo
