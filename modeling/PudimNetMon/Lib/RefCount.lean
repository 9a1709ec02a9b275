import Mathlib.Data.List.Count
import Mathlib.Data.List.Perm.Basic
import Mathlib.Logic.Function.Basic

/-!
# Counted references

Objects carry a count of the references to them. An operation on an object whose count is zero is a fault: the object is
gone. `Counted refs held` says that the counts are those of the references that are held, each listed once for every
holder.

- `Counted.alloc`, `Counted.upRef`, `Counted.free`: an operation of a holder does not fault and keeps the counts;
- `Counted.freeAll`: so does giving up several references, one after the other;
- `flatMap_eraseIdx`, `flatMap_set`: what the holders of a list hold, and one of them apart.
-/

namespace PudimNetMon

variable {ι : Type} [DecidableEq ι]

inductive RefOp (ι : Type)
  /-- An object comes to life with one reference to it. -/
  | alloc (i : ι)
  | upRef (i : ι)
  | free (i : ι)

namespace RefOp

/-- The counts behind an operation, unless it faults. -/
def apply (refs : ι → Nat) : RefOp ι → Option (ι → Nat)
  | alloc i => if refs i = 0 then some (Function.update refs i 1) else none
  | upRef i => if refs i = 0 then none else some (Function.update refs i (refs i + 1))
  | free i => if refs i = 0 then none else some (Function.update refs i (refs i - 1))

/-- Several operations, up to the first that faults. -/
def applyAll : (ι → Nat) → List (RefOp ι) → Option (ι → Nat)
  | refs, [] => some refs
  | refs, op :: ops => (op.apply refs).bind fun refs' => applyAll refs' ops

theorem applyAll_append (refs : ι → Nat) (ops ops' : List (RefOp ι)) :
    applyAll refs (ops ++ ops') = (applyAll refs ops).bind fun refs' => applyAll refs' ops' := by
  induction ops generalizing refs with
  | nil => simp [applyAll]
  | cons op ops ih => cases h : op.apply refs <;> simp [applyAll, h, ih]

end RefOp

/-- The counts are those of the references held. -/
def Counted (refs : ι → Nat) (held : List ι) : Prop := ∀ i, refs i = held.count i

/-- The operations do not fault and lead to the counts of what is held then. -/
def Leads (refs : ι → Nat) (ops : List (RefOp ι)) (held : List ι) : Prop :=
  ∃ refs', RefOp.applyAll refs ops = some refs' ∧ Counted refs' held

namespace Counted

variable {refs : ι → Nat} {held held' : List ι} {i : ι}

theorem perm (h : Counted refs held) (hp : held.Perm held') : Counted refs held' := fun j => by
  rw [h j, hp.count_eq]

theorem leads (h : Counted refs held) : Leads refs [] held := ⟨refs, rfl, h⟩

/-- What is held is alive. -/
theorem pos (h : Counted refs held) (hi : i ∈ held) : 0 < refs i := by
  rw [h i]
  exact List.count_pos_iff.2 hi

theorem alloc (h : Counted refs held) (hi : refs i = 0) : Leads refs [.alloc i] (i :: held) := by
  refine ⟨Function.update refs i 1, by simp [RefOp.applyAll, RefOp.apply, hi], fun j => ?_⟩
  by_cases hj : j = i
  · subst hj
    simp [← h j, hi]
  · simp [h j, hj, Ne.symm hj]

theorem upRef (h : Counted refs held) (hi : i ∈ held) : Leads refs [.upRef i] (i :: held) := by
  have hpos := h.pos hi
  refine ⟨Function.update refs i (refs i + 1), ?_, fun j => ?_⟩
  · simp only [RefOp.applyAll, RefOp.apply, if_neg (Nat.ne_of_gt hpos), Option.bind_some]
  by_cases hj : j = i
  · subst hj
    simp [h j]
  · simp [h j, hj, Ne.symm hj]

theorem free (h : Counted refs (i :: held)) : Leads refs [.free i] held := by
  have hpos := h.pos List.mem_cons_self
  refine ⟨Function.update refs i (refs i - 1), ?_, fun j => ?_⟩
  · simp only [RefOp.applyAll, RefOp.apply, if_neg (Nat.ne_of_gt hpos), Option.bind_some]
  by_cases hj : j = i
  · subst hj
    simp [h j]
  · simp [h j, hj, Ne.symm hj]

end Counted

/-- The order in which references are held does not matter. -/
theorem Leads.perm {refs : ι → Nat} {ops : List (RefOp ι)} {held held' : List ι} (h : Leads refs ops held)
    (hp : held.Perm held') : Leads refs ops held' := by
  obtain ⟨refs', hrefs, hc⟩ := h
  exact ⟨refs', hrefs, hc.perm hp⟩

/-- Operations one after the other. -/
theorem Leads.append {refs : ι → Nat} {ops ops' : List (RefOp ι)} {held held' : List ι} (h : Leads refs ops held)
    (h' : ∀ refs', Counted refs' held → Leads refs' ops' held') : Leads refs (ops ++ ops') held' := by
  obtain ⟨refs', hrefs, hc⟩ := h
  obtain ⟨refs'', hrefs', hc'⟩ := h' refs' hc
  exact ⟨refs'', by rw [RefOp.applyAll_append, hrefs, Option.bind_some, hrefs'], hc'⟩

/-- Several references are given up. -/
theorem Counted.freeAll {refs : ι → Nat} {held : List ι} : ∀ {is : List ι}, Counted refs (is ++ held) →
    Leads refs (is.map .free) held := by
  intro is h
  induction is generalizing refs with
  | nil => exact h.leads
  | cons i is ih => exact Leads.append h.free fun refs' h' => ih h'

/-! ## Holders in a list -/

section

variable {α β : Type} {l : List α} {n : Nat} {a : α} {f : α → List β}

theorem flatMap_eraseIdx (h : l[n]? = some a) : (l.flatMap f).Perm (f a ++ (l.eraseIdx n).flatMap f) := by
  obtain ⟨hn, rfl⟩ := List.getElem?_eq_some_iff.1 h
  exact ((List.getElem_cons_eraseIdx_perm hn).symm.flatMap_right f).trans (by simp)

theorem flatMap_set (h : l[n]? = some a) (b : α) : ((l.set n b).flatMap f).Perm (f b ++ (l.eraseIdx n).flatMap f) := by
  obtain ⟨hn, -⟩ := List.getElem?_eq_some_iff.1 h
  exact ((List.set_perm_cons_eraseIdx hn b).flatMap_right f).trans (by simp)

end

end PudimNetMon
