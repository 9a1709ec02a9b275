import Mathlib.Data.List.Basic

/-!
# Fields joined by a separator

`join3 sep a b c` puts three fields into one list, `cut` takes a list apart at its first separator and `cutLast` at its
last one. Fields without a separator are read back (`join3_unique`). A list with more than two separators has several
readings, and they disagree in the first and in the middle field (`other_middle`, `other_first`).
-/

namespace PudimNetMon

variable {α : Type} [DecidableEq α] (sep : α)

def join3 (a b c : List α) : List α := a ++ sep :: (b ++ sep :: c)

/-- What is in front of the first separator, and what is behind it. -/
def cut : List α → Option (List α × List α)
  | [] => none
  | x :: xs => if x = sep then some ([], xs) else (cut xs).map fun p => (x :: p.1, p.2)

/-- What is in front of the last separator, and what is behind it. -/
def cutLast : List α → Option (List α × List α)
  | [] => none
  | x :: xs =>
    match cutLast xs with
    | some (front, back) => some (x :: front, back)
    | none => if x = sep then some ([], xs) else none

variable {sep} {a b c a' b' c' l : List α}

theorem count_join3 : (join3 sep a b c).count sep = a.count sep + b.count sep + c.count sep + 2 := by
  simp only [join3, List.count_append, List.count_cons_self]
  omega

theorem cut_append (ha : sep ∉ a) (b : List α) : cut sep (a ++ sep :: b) = some (a, b) := by
  induction a with
  | nil => simp [cut]
  | cons x xs ih =>
    rw [List.mem_cons, not_or] at ha
    simp [cut, Ne.symm ha.1, ih ha.2]

theorem append_of_cut (h : cut sep l = some (a, b)) : l = a ++ sep :: b := by
  induction l generalizing a with
  | nil => cases h
  | cons x xs ih =>
    unfold cut at h
    split at h
    · rename_i hx
      cases h
      rw [hx, List.nil_append]
    · obtain ⟨⟨front, back⟩, hcut, heq⟩ := Option.map_eq_some_iff.1 h
      cases heq
      rw [ih hcut, List.cons_append]

theorem cut_eq_none (h : sep ∉ l) : cut sep l = none := by
  induction l with
  | nil => rfl
  | cons x xs ih =>
    rw [List.mem_cons, not_or] at h
    simp [cut, Ne.symm h.1, ih h.2]

theorem not_mem_of_cut (h : cut sep l = some (a, b)) : sep ∉ a := by
  induction l generalizing a with
  | nil => cases h
  | cons x xs ih =>
    unfold cut at h
    split at h
    · cases h
      exact List.not_mem_nil
    · rename_i hx
      obtain ⟨⟨front, back⟩, hcut, heq⟩ := Option.map_eq_some_iff.1 h
      cases heq
      rw [List.mem_cons, not_or]
      exact ⟨Ne.symm hx, ih hcut⟩

theorem cutLast_eq_none_iff : cutLast sep l = none ↔ sep ∉ l := by
  induction l with
  | nil => simp [cutLast]
  | cons x xs ih =>
    unfold cutLast
    rw [List.mem_cons, not_or]
    cases h : cutLast sep xs with
    | some p =>
      have hmem : ¬sep ∉ xs := fun hnot => by
        rw [ih.2 hnot] at h
        cases h
      simp [hmem]
    | none =>
      have hnot := ih.1 h
      by_cases hx : x = sep
      · simp [hx]
      · simp [hx, hnot, Ne.symm hx]

theorem cutLast_append (hb : sep ∉ b) (a : List α) : cutLast sep (a ++ sep :: b) = some (a, b) := by
  induction a with
  | nil => simp [cutLast, cutLast_eq_none_iff.2 hb]
  | cons x xs ih => simp [cutLast, ih]

theorem append_of_cutLast (h : cutLast sep l = some (a, b)) : l = a ++ sep :: b := by
  induction l generalizing a with
  | nil => cases h
  | cons x xs ih =>
    unfold cutLast at h
    split at h
    · rename_i front back hcut
      cases h
      rw [ih hcut, List.cons_append]
    · split at h
      · rename_i hx
        cases h
        rw [hx, List.nil_append]
      · cases h

omit [DecidableEq α] in
/-- A separator splits the list. -/
theorem split_of_mem (h : sep ∈ l) : ∃ a b, l = a ++ sep :: b ∧ sep ∉ a := by
  obtain ⟨a, b, rfl, ha⟩ := List.eq_append_cons_of_mem h
  exact ⟨a, b, rfl, ha⟩

/-- **Fields are read back.** -/
theorem join3_unique (hcount : (join3 sep a b c).count sep = 2) (h : join3 sep a' b' c' = join3 sep a b c) :
    a' = a ∧ b' = b ∧ c' = c := by
  have hcount' : (join3 sep a' b' c').count sep = 2 := by rw [h, hcount]
  rw [count_join3] at hcount hcount'
  have ha : sep ∉ a := List.count_eq_zero.1 (by omega)
  have hb : sep ∉ b := List.count_eq_zero.1 (by omega)
  have ha' : sep ∉ a' := List.count_eq_zero.1 (by omega)
  have hb' : sep ∉ b' := List.count_eq_zero.1 (by omega)
  have hfirst := congrArg (cut sep) h
  rw [join3, join3, cut_append ha', cut_append ha, Option.some.injEq, Prod.mk.injEq] at hfirst
  have hrest := congrArg (cut sep) hfirst.2
  rw [cut_append hb', cut_append hb, Option.some.injEq, Prod.mk.injEq] at hrest
  exact ⟨hfirst.1, hrest.1, hrest.2⟩

/-- With a third separator there is a reading with another middle field. -/
theorem other_middle (h : 2 < (join3 sep a b c).count sep) :
    ∃ a' b' c', join3 sep a' b' c' = join3 sep a b c ∧ b' ≠ b := by
  rw [count_join3] at h
  by_cases ha : sep ∈ a
  · obtain ⟨a₁, a₂, rfl, -⟩ := split_of_mem ha
    refine ⟨a₁, a₂ ++ sep :: b, c, by simp [join3], fun he => ?_⟩
    have := congrArg List.length he
    simp at this
    omega
  by_cases hb : sep ∈ b
  · obtain ⟨b₁, b₂, rfl, -⟩ := split_of_mem hb
    refine ⟨a, b₁, b₂ ++ sep :: c, by simp [join3], fun he => ?_⟩
    have := congrArg List.length he
    simp at this
  · have hc : sep ∈ c := by
      rw [List.count_eq_zero.2 ha, List.count_eq_zero.2 hb] at h
      exact List.count_pos_iff.1 (by omega)
    obtain ⟨c₁, c₂, rfl, -⟩ := split_of_mem hc
    refine ⟨a, b ++ sep :: c₁, c₂, by simp [join3], fun he => ?_⟩
    have := congrArg List.length he
    simp at this

/-- A list that starts with a field and a separator has a reading with another first field, if the field holds a
separator or two more follow. -/
theorem other_first {rest : List α} (h : sep ∈ a ∨ 1 < rest.count sep) :
    ∃ a' b' c', join3 sep a' b' c' = a ++ sep :: rest ∧ a' ≠ a := by
  rcases h with ha | hrest
  · obtain ⟨a₁, a₂, rfl, -⟩ := split_of_mem ha
    refine ⟨a₁, a₂, rest, by simp [join3], fun he => ?_⟩
    have := congrArg List.length he
    simp at this
  · obtain ⟨x, y, rfl, hx⟩ := split_of_mem (List.count_pos_iff.1 (by omega : 0 < rest.count sep))
    have hy : sep ∈ y := by
      rw [List.count_append, List.count_cons_self, List.count_eq_zero.2 hx] at hrest
      exact List.count_pos_iff.1 (by omega)
    obtain ⟨y₁, y₂, rfl, -⟩ := split_of_mem hy
    refine ⟨a ++ sep :: x, y₁, y₂, by simp [join3], fun he => ?_⟩
    have := congrArg List.length he
    simp at this

/-- What holds of the separator and of the fields holds of what they are joined to. -/
theorem forall_mem_intercalate {β : Type} {s : β} {fields : List (List β)} {p : β → Prop} (hs : p s)
    (h : ∀ field ∈ fields, ∀ x ∈ field, p x) : ∀ x ∈ [s].intercalate fields, p x := by
  induction fields with
  | nil => exact nofun
  | cons field fields ih =>
    rw [List.forall_mem_cons] at h
    cases fields with
    | nil => simpa using h.1
    | cons next fields =>
      rw [List.intercalate_cons_cons, List.forall_mem_append, List.forall_mem_append, List.forall_mem_singleton]
      exact ⟨⟨h.1, hs⟩, ih h.2⟩

end PudimNetMon
