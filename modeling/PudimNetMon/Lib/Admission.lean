import Mathlib.Data.Finset.Card
import Mathlib.Data.Fintype.Basic

/-!
# One entry at a time for each key

Entries with keys are admitted to a queue and taken from it by a fixed set of holders; a set of busy keys keeps a key
with an entry from being admitted again. An entry that is dropped instead of taken leaves its key busy.

- `OneEach.step`: every step keeps at most one entry of each key, and none of a key that is not busy;
- `exact_step_iff`: a step keeps the busy keys those with an entry exactly when it drops none.
-/

namespace PudimNetMon

variable {ι κ : Type} [Fintype ι] [DecidableEq ι] [DecidableEq κ]

structure Admission (ι κ : Type) where
  queue : List κ
  held : ι → Option κ
  busy : Finset κ

namespace Admission

/-- The queued and the held entries of a key. -/
def load (s : Admission ι κ) (k : κ) : Nat := s.queue.count k + (Finset.univ.filter fun i => s.held i = some k).card

omit [DecidableEq ι] in
theorem load_pos_iff {s : Admission ι κ} {k : κ} : 0 < s.load k ↔ k ∈ s.queue ∨ ∃ i, s.held i = some k := by
  unfold load
  rw [Nat.add_pos_iff_pos_or_pos, List.count_pos_iff, Finset.card_pos, Finset.filter_nonempty_iff]
  simp

/-- What a step does: an entry is admitted, taken, dropped or released, or none of it; the flag says whether one is
dropped. -/
inductive Step (s : Admission ι κ) : Bool → Admission ι κ → Prop
  | stay : Step s false s
  | enter (k : κ) : k ∉ s.busy → Step s false { s with queue := s.queue ++ [k], busy := insert k s.busy }
  | take (i : ι) (k : κ) (rest : List κ) : s.queue = k :: rest → s.held i = none →
      Step s false { s with queue := rest, held := Function.update s.held i (some k) }
  | drop (k : κ) (rest : List κ) : s.queue = k :: rest → Step s true { s with queue := rest }
  | release (i : ι) (k : κ) : s.held i = some k →
      Step s false { s with held := Function.update s.held i none, busy := s.busy.erase k }

/-- At most one entry of each key, and none of a key that is not busy. -/
def OneEach (s : Admission ι κ) : Prop := ∀ k, s.load k ≤ if k ∈ s.busy then 1 else 0

/-- The busy keys are those with an entry. -/
def Exact (s : Admission ι κ) : Prop := ∀ k, k ∈ s.busy ↔ 0 < s.load k

variable {s s' : Admission ι κ}

/-! ## What a step does to the load -/

omit [DecidableEq ι] in
theorem load_enter (s : Admission ι κ) (k k' : κ) :
    load { s with queue := s.queue ++ [k], busy := insert k s.busy } k' = s.load k' + if k = k' then 1 else 0 := by
  simp only [load, List.count_append, List.count_singleton, beq_iff_eq]
  omega

omit [DecidableEq ι] in
theorem load_queue {k : κ} {rest : List κ} (h : s.queue = k :: rest) (k' : κ) :
    s.load k' = load { s with queue := rest } k' + if k = k' then 1 else 0 := by
  simp only [load, h, List.count_cons, beq_iff_eq]
  omega

theorem load_hold {i : ι} (h : s.held i = none) (k k' : κ) :
    load { s with held := Function.update s.held i (some k) } k' = s.load k' + if k = k' then 1 else 0 := by
  have hset : (Finset.univ.filter fun j => Function.update s.held i (some k) j = some k') =
      if k = k' then insert i (Finset.univ.filter fun j => s.held j = some k')
      else Finset.univ.filter fun j => s.held j = some k' := by
    ext j
    by_cases hj : j = i
    · subst hj
      split <;> simp_all
    · split <;> simp [hj]
  have hnew : i ∉ Finset.univ.filter fun j => s.held j = some k' := by simp [h]
  simp only [load, hset]
  split
  · rw [Finset.card_insert_of_notMem hnew]
    omega
  · rfl

theorem load_release {i : ι} {k : κ} (h : s.held i = some k) (busy : Finset κ) (k' : κ) :
    s.load k' = load { s with held := Function.update s.held i none, busy := busy } k' + if k = k' then 1 else 0 := by
  -- the released entry is held again
  have hback := load_hold (s := { s with held := Function.update s.held i none, busy := busy }) (i := i)
    (Function.update_self ..) k k'
  simp only [Function.update_idem] at hback
  have hsame : Function.update s.held i (some k) = s.held := by rw [← h, Function.update_eq_self]
  rw [hsame] at hback
  exact hback

theorem load_take {i : ι} {k : κ} {rest : List κ} (hq : s.queue = k :: rest) (hi : s.held i = none) (k' : κ) :
    load { s with queue := rest, held := Function.update s.held i (some k) } k' = s.load k' := by
  rw [load_queue hq k']
  exact load_hold (s := { s with queue := rest }) hi k k'

/-! ## Invariants -/

/-- **One entry.** -/
theorem OneEach.step {dropped : Bool} (h : OneEach s) (hs : Step s dropped s') : OneEach s' := by
  intro k'
  have hk' := h k'
  cases hs with
  | stay => exact hk'
  | enter k hk =>
    rw [load_enter]
    by_cases he : k = k'
    · subst he
      rw [if_neg hk] at hk'
      simp
      omega
    · simpa [he, Ne.symm he] using hk'
  | take i k rest hq hi =>
    rw [load_take hq hi]
    exact hk'
  | drop k rest hq =>
    rw [load_queue hq] at hk'
    exact Nat.le_trans (Nat.le_add_right ..) hk'
  | release i k hi =>
    rw [load_release hi (s.busy.erase k) k'] at hk'
    by_cases he : k = k'
    · subst he
      rw [if_pos rfl] at hk'
      have hle : (if k ∈ s.busy then 1 else 0) ≤ 1 := by split <;> omega
      simp
      omega
    · simpa [he, Ne.symm he] using hk'

omit [DecidableEq ι] in
theorem OneEach.load_le (h : OneEach s) (k : κ) : s.load k ≤ 1 := by
  have hk := h k
  split at hk <;> omega

/-- An entry has one holder. -/
theorem OneEach.held_inj (h : OneEach s) {i j : ι} {k : κ} (hi : s.held i = some k) (hj : s.held j = some k) :
    i = j := by
  by_contra hne
  have hcard : 1 < (Finset.univ.filter fun i => s.held i = some k).card :=
    Finset.one_lt_card.2 ⟨i, by simp [hi], j, by simp [hj], hne⟩
  have hle := h.load_le k
  unfold load at hle
  omega

omit [DecidableEq ι] in
/-- A held entry is not queued. -/
theorem OneEach.not_queued (h : OneEach s) {i : ι} {k : κ} (hi : s.held i = some k) : k ∉ s.queue := by
  intro hq
  have hqueued := List.count_pos_iff.2 hq
  have hheld : 0 < (Finset.univ.filter fun i => s.held i = some k).card := Finset.card_pos.2 ⟨i, by simp [hi]⟩
  have hle := h.load_le k
  unfold load at hle
  omega

/-- **Exact busy keys.** -/
theorem exact_step_iff {dropped : Bool} (hone : OneEach s) (h : Exact s) (hs : Step s dropped s') :
    Exact s' ↔ dropped = false := by
  cases hs with
  | stay => exact iff_of_true h rfl
  | enter k hk =>
    refine iff_of_true (fun k' => ?_) rfl
    rw [load_enter, Finset.mem_insert, h k']
    by_cases he : k = k'
    · simp [he]
    · simp [he, Ne.symm he]
  | take i k rest hq hi =>
    refine iff_of_true (fun k' => ?_) rfl
    rw [load_take hq hi]
    exact h k'
  | drop k rest hq =>
    -- its key stays busy, and the dropped entry was its only one
    refine iff_of_false (fun hexact => ?_) (by simp)
    have hload := load_queue hq k
    rw [if_pos rfl] at hload
    have hle := hone.load_le k
    have hbusy : k ∈ s.busy := (h k).2 (by omega)
    have := (hexact k).1 hbusy
    omega
  | release i k hi =>
    refine iff_of_true (fun k' => ?_) rfl
    have hload := load_release hi (s.busy.erase k) k'
    have hk' := h k'
    have hle := hone.load_le k'
    by_cases he : k = k'
    · subst he
      rw [if_pos rfl] at hload
      simp
      omega
    · rw [if_neg he] at hload
      simp only [Finset.mem_erase, ne_eq, Ne.symm he, not_false_eq_true, true_and]
      rw [hk', hload]
      omega

end Admission

end PudimNetMon
