import Mathlib.Data.List.Nodup
import Mathlib.Data.List.Sort

/-!
# The first rows by a key

`lowest key n l` is what an ascending order with a limit leaves of the rows of a list. With one of them, it has every
row above only if nothing is cut off or all rows have one key (`upward_lowest_iff`).
-/

namespace PudimNetMon

section

variable {α κ : Type} [LinearOrder κ] {key : α → κ} {n : Nat} {l : List α}

/-- The first `n` rows by their keys; those of one key keep the order of the list. -/
def lowest (key : α → κ) (n : Nat) (l : List α) : List α := (l.mergeSort fun a b => decide (key a ≤ key b)).take n

/-- With a row, every row above it is chosen. -/
def Upward (key : α → κ) (chosen l : List α) : Prop := ∀ a ∈ chosen, ∀ b ∈ l, key a < key b → b ∈ chosen

theorem lowest_subset : lowest key n l ⊆ l := fun _ ha => List.mem_mergeSort.1 (List.mem_of_mem_take ha)

/-- Without a cut all rows are there. -/
theorem mem_lowest_of_length_le (h : l.length ≤ n) {a : α} : a ∈ lowest key n l ↔ a ∈ l := by
  unfold lowest
  rw [List.take_of_length_le (by rwa [List.length_mergeSort]), List.mem_mergeSort]

/-- The rows are those chosen and those cut off, and the latter are nowhere below the former. -/
theorem exists_cut (key : α → κ) (n : Nat) (l : List α) : ∃ rest, (lowest key n l ++ rest).Perm l ∧
    (lowest key n l ++ rest).Pairwise fun a b => key a ≤ key b := by
  have htrans : ∀ a b c, decide (key a ≤ key b) = true → decide (key b ≤ key c) = true →
      decide (key a ≤ key c) = true := by
    simp only [decide_eq_true_eq]
    exact fun a b c => le_trans
  have htotal : ∀ a b, (decide (key a ≤ key b) || decide (key b ≤ key a)) = true := by
    simp only [Bool.or_eq_true, decide_eq_true_eq]
    exact fun a b => le_total (key a) (key b)
  have hsorted := List.pairwise_mergeSort htrans htotal l
  refine ⟨(l.mergeSort fun a b => decide (key a ≤ key b)).drop n, ?_, ?_⟩
  · rw [lowest, List.take_append_drop]
    exact List.mergeSort_perm _ _
  · rw [lowest, List.take_append_drop]
    exact hsorted.imp fun h => of_decide_eq_true h

theorem upward_lowest_iff (hn : 0 < n) (hl : l.Nodup) :
    Upward key (lowest key n l) l ↔ l.length ≤ n ∨ ∀ a ∈ l, ∀ b ∈ l, key a = key b := by
  constructor
  · intro h
    by_cases hlength : l.length ≤ n
    · exact .inl hlength
    refine .inr ?_
    obtain ⟨rest, hperm, hsorted⟩ := exists_cut key n l
    have hcut : (lowest key n l).length = n := by
      rw [lowest, List.length_take, List.length_mergeSort]
      omega
    have hrest : rest ≠ [] := by
      rintro rfl
      have hsame := hperm.length_eq
      rw [List.append_nil, hcut] at hsame
      omega
    -- the last row is cut off, so nothing that is chosen lies below it
    obtain ⟨front, z, rfl⟩ : ∃ front z, rest = front ++ [z] :=
      ⟨_, _, (List.dropLast_append_getLast hrest).symm⟩
    have hnodup := hperm.nodup_iff.2 hl
    have hz : z ∈ l := hperm.mem_iff.1 (by simp)
    have hout : z ∉ lowest key n l := fun hin =>
      (List.disjoint_of_nodup_append hnodup) hin (by simp)
    obtain ⟨-, htail, hbelow⟩ := List.pairwise_append.1 hsorted
    have hchosen : ∀ a ∈ lowest key n l, key a = key z := fun a ha =>
      le_antisymm (hbelow a ha z (by simp)) (not_lt.1 fun hlt => hout (h a ha z hz hlt))
    obtain ⟨first, hfirst⟩ := List.exists_mem_of_length_pos (by omega : 0 < (lowest key n l).length)
    have hall : ∀ a ∈ l, key a = key z := by
      intro a ha
      rcases List.mem_append.1 (hperm.mem_iff.2 ha) with ha | ha
      · exact hchosen a ha
      · refine le_antisymm ?_ (hchosen first hfirst ▸ hbelow first hfirst a ha)
        rw [List.pairwise_append] at htail
        rcases List.mem_append.1 ha with ha | ha
        · exact htail.2.2 a ha z List.mem_cons_self
        · rw [List.mem_singleton.1 ha]
    exact fun a ha b hb => (hall a ha).trans (hall b hb).symm
  · rintro (hlength | hsame) a ha b hb hlt
    · exact (mem_lowest_of_length_le hlength).2 hb
    · exact absurd (hsame a (lowest_subset ha) b hb) hlt.ne

end

end PudimNetMon
