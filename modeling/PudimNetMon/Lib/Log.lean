import Mathlib.Data.List.Basic

/-!
# Logs

A log is a list of entries, the newest at the end. `Since p q log` says that an entry with `p` was made and no entry
with `q` after it; `Preceded r p q log` that each entry with `r` found such a log before it. `Latest p q log e` says
which entry with `p` the last one is, `Spaced p q rel log` relates each entry with `p` to the latest one before it. They
are known from the last entry and the log before it (`since_snoc`, `preceded_snoc`, `latest_snoc`, `spaced_snoc`).
`newest n` are the last entries of a log, `behind q` those behind the last one with `q`.
-/

namespace PudimNetMon

variable {ε : Type} {p q r : ε → Prop} {log : List ε} {e : ε}

/-- An entry with `p` is in the log, and none with `q` behind it. -/
def Since (p q : ε → Prop) (log : List ε) : Prop :=
  ∃ before e after, log = before ++ e :: after ∧ p e ∧ ∀ x ∈ after, ¬q x

/-- Before each entry with `r` there is one with `p`, and none with `q` between them. -/
def Preceded (r p q : ε → Prop) (log : List ε) : Prop :=
  ∀ before e after, log = before ++ e :: after → r e → Since p q before

/-- A place in a log that has grown is the new end, or one of the old log. -/
theorem split_snoc {log front back : List ε} {x y : ε} (h : log ++ [y] = front ++ x :: back) :
    (front = log ∧ x = y ∧ back = []) ∨ ∃ back', back = back' ++ [y] ∧ log = front ++ x :: back' := by
  rcases List.eq_nil_or_concat back with rfl | ⟨back', z, rfl⟩
  · obtain ⟨hfront, hx⟩ := List.append_inj' h rfl
    cases hx
    exact .inl ⟨hfront.symm, rfl, rfl⟩
  · rw [List.concat_eq_append, ← List.cons_append, ← List.append_assoc] at h
    obtain ⟨hlog, hz⟩ := List.append_inj' h rfl
    cases hz
    exact .inr ⟨back', List.concat_eq_append, hlog⟩

/-- What holds of each entry and the log before it is known from the last entry. -/
theorem forall_split_snoc {P : List ε → ε → Prop} :
    (∀ before x after, log ++ [e] = before ++ x :: after → P before x) ↔
      (∀ before x after, log = before ++ x :: after → P before x) ∧ P log e := by
  constructor
  · intro h
    exact ⟨fun before x after hlog => h before x (after ++ [e]) (by simp [hlog]), h log e [] rfl⟩
  · rintro ⟨h, he⟩ before x after hlog
    rcases List.eq_nil_or_concat after with rfl | ⟨after, y, rfl⟩
    · have hlast := List.append_inj_right' hlog rfl
      have hfront := List.append_inj_left' hlog rfl
      cases hlast
      rwa [← hfront]
    · rw [List.concat_eq_append] at hlog
      have hlog : log ++ [e] = (before ++ x :: after) ++ [y] := by simpa using hlog
      exact h before x after (List.append_inj_left' hlog rfl)

theorem since_snoc : Since p q (log ++ [e]) ↔ p e ∨ (Since p q log ∧ ¬q e) := by
  constructor
  · rintro ⟨before, x, after, h, hx, hafter⟩
    rcases List.eq_nil_or_concat after with rfl | ⟨after, y, rfl⟩
    · have := List.append_inj_right' h rfl
      cases this
      exact .inl hx
    · rw [List.concat_eq_append] at h hafter
      have h : log ++ [e] = (before ++ x :: after) ++ [y] := by simpa using h
      have hlast := List.append_inj_right' h rfl
      cases hlast
      have hlog := List.append_inj_left' h rfl
      exact .inr ⟨⟨before, x, after, hlog, hx, fun z hz => hafter z (by simp [hz])⟩, hafter e (by simp)⟩
  · rintro (hp | ⟨⟨before, x, after, rfl, hx, hafter⟩, hq⟩)
    · exact ⟨log, e, [], rfl, hp, nofun⟩
    · refine ⟨before, x, after ++ [e], by simp, hx, fun z hz => ?_⟩
      rcases List.mem_append.1 hz with hz | hz
      · exact hafter z hz
      · rw [List.mem_singleton.1 hz]
        exact hq

theorem preceded_nil : Preceded r p q [] := by
  intro before e after h
  simp at h

/-- What an event adds: it needs its condition since the last reset. -/
theorem preceded_snoc : Preceded r p q (log ++ [e]) ↔ Preceded r p q log ∧ (r e → Since p q log) :=
  @forall_split_snoc _ _ _ fun before x => r x → Since p q before

/-- The last entry with `p`, with none with `q` behind it. -/
def Latest (p q : ε → Prop) (log : List ε) (e : ε) : Prop :=
  ∃ before after, log = before ++ e :: after ∧ p e ∧ ∀ x ∈ after, ¬p x ∧ ¬q x

/-- Two entries with `p` are related, when none with `p` or `q` is between them. -/
def Spaced (p q : ε → Prop) (rel : ε → ε → Prop) (log : List ε) : Prop :=
  ∀ before e after, log = before ++ e :: after → p e → ∀ e', Latest p q before e' → rel e' e

theorem not_latest_nil {e : ε} : ¬Latest p q [] e := by
  rintro ⟨before, after, h, -⟩
  simp at h

theorem latest_snoc {e' : ε} : Latest p q (log ++ [e]) e' ↔ (p e ∧ e' = e) ∨ (¬p e ∧ ¬q e ∧ Latest p q log e') := by
  constructor
  · rintro ⟨before, after, h, hp, hafter⟩
    rcases List.eq_nil_or_concat after with rfl | ⟨after, y, rfl⟩
    · have hlast := List.append_inj_right' h rfl
      cases hlast
      exact .inl ⟨hp, rfl⟩
    · rw [List.concat_eq_append] at h hafter
      have h : log ++ [e] = (before ++ e' :: after) ++ [y] := by simpa using h
      have hlast := List.append_inj_right' h rfl
      cases hlast
      obtain ⟨hnp, hnq⟩ := hafter e (by simp)
      exact .inr ⟨hnp, hnq, before, after, List.append_inj_left' h rfl, hp, fun z hz => hafter z (by simp [hz])⟩
  · rintro (⟨hp, rfl⟩ | ⟨hnp, hnq, before, after, rfl, hp, hafter⟩)
    · exact ⟨log, [], rfl, hp, nofun⟩
    · refine ⟨before, after ++ [e], by simp, hp, fun z hz => ?_⟩
      rcases List.mem_append.1 hz with hz | hz
      · exact hafter z hz
      · rw [List.mem_singleton.1 hz]
        exact ⟨hnp, hnq⟩

section

variable {rel : ε → ε → Prop}

theorem spaced_nil : Spaced p q rel [] := by
  intro before e after h
  simp at h

theorem spaced_snoc : Spaced p q rel (log ++ [e]) ↔ Spaced p q rel log ∧ (p e → ∀ e', Latest p q log e' → rel e' e) :=
  @forall_split_snoc _ _ _ fun before x => p x → ∀ e', Latest p q before e' → rel e' x

end

/-- The entries behind the last one with `q`. -/
def behind (q : ε → Bool) (log : List ε) : List ε := (log.reverse.takeWhile fun e => !q e).reverse

theorem behind_snoc (q : ε → Bool) (log : List ε) (e : ε) :
    behind q (log ++ [e]) = if q e then [] else behind q log ++ [e] := by
  unfold behind
  rw [List.reverse_append, List.reverse_singleton, List.singleton_append, List.takeWhile_cons]
  cases q e with
  | true => rfl
  | false => simp

/-- The last `n` entries. -/
def newest (n : Nat) (log : List ε) : List ε := log.drop (log.length - n)

theorem newest_of_length_le {n : Nat} (h : log.length ≤ n) : newest n log = log := by
  unfold newest
  rw [Nat.sub_eq_zero_of_le h, List.drop_zero]

/-- Older entries do not matter. -/
theorem newest_append_newest (n : Nat) (log entries : List ε) :
    newest n (newest n log ++ entries) = newest n (log ++ entries) := by
  unfold newest
  rw [← List.drop_append_of_le_length (by omega), List.drop_drop]
  congr 1
  simp only [List.length_drop, List.length_append]
  omega

theorem map_newest {δ : Type} (f : ε → δ) (n : Nat) (log : List ε) : (newest n log).map f = newest n (log.map f) := by
  simp [newest, List.map_drop]

end PudimNetMon
