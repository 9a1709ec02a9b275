import Mathlib.Logic.Function.Basic

/-!
# Tenants of keys

Parties own keys, and some of the owners stand in a table under their key. `Tenancy` says that a key has one owner, and
that a registered owner is the one in the table; it survives whatever only takes owners away (`Tenancy.mono`), a party
that comes to a free key (`Tenancy.enter`), one that is put into the table (`Tenancy.register`) and one that leaves it
(`Tenancy.leave`).
-/

namespace PudimNetMon

variable {ι κ : Type} {key : ι → κ} {owns registered owns' registered' : ι → Prop} {table : κ → Option ι}

/-- A key has one owner, and a registered one stands in the table. -/
structure Tenancy (key : ι → κ) (owns registered : ι → Prop) (table : κ → Option ι) : Prop where
  owner : ∀ i, registered i → owns i
  one : ∀ i j, owns i → owns j → key i = key j → i = j
  entry : ∀ i, registered i → table (key i) = some i

namespace Tenancy

theorem vacant (h : ∀ i, ¬ owns i) (h' : ∀ i, ¬ registered i) : Tenancy key owns registered table :=
  ⟨fun i hi => absurd hi (h' i), fun i _ hi => absurd hi (h i), fun i hi => absurd hi (h' i)⟩

/-- What only takes owners away keeps the tenancy. -/
theorem mono (h : Tenancy key owns registered table) (howns : ∀ i, owns' i → owns i)
    (hregistered : ∀ i, registered' i → owns' i ∧ registered i) : Tenancy key owns' registered' table :=
  ⟨fun i hi => (hregistered i hi).1, fun i j hi hj => h.one i j (howns i hi) (howns j hj),
    fun i hi => h.entry i (hregistered i hi).2⟩

/-- The key of a new owner has no other. -/
theorem enter (h : Tenancy key owns registered table) {i : ι} (hfree : ∀ j, owns j → key j = key i → j = i)
    (howns : ∀ j, owns' j → owns j ∨ j = i) (hregistered : ∀ j, registered' j → owns' j ∧ registered j) :
    Tenancy key owns' registered' table := by
  refine ⟨fun j hj => (hregistered j hj).1, fun j k hj hk heq => ?_, fun j hj => h.entry j (hregistered j hj).2⟩
  rcases howns j hj with hj | rfl
  · rcases howns k hk with hk | rfl
    · exact h.one j k hj hk heq
    · exact hfree j hj heq
  · rcases howns k hk with hk | rfl
    · exact (hfree k hk heq.symm).symm
    · rfl

variable [DecidableEq κ]

theorem register (h : Tenancy key owns registered table) {i : ι} (hi : owns i) (howns : ∀ j, owns' j → owns j)
    (hregistered : ∀ j, registered' j → owns' j ∧ (registered j ∨ j = i)) :
    Tenancy key owns' registered' (Function.update table (key i) (some i)) := by
  refine ⟨fun j hj => (hregistered j hj).1, fun j k hj hk => h.one j k (howns j hj) (howns k hk), fun j hj => ?_⟩
  obtain ⟨hown, hbefore⟩ := hregistered j hj
  by_cases heq : key j = key i
  · obtain rfl := h.one j i (howns j hown) hi heq
    exact Function.update_self _ _ _
  · rw [Function.update_of_ne heq]
    rcases hbefore with hbefore | rfl
    · exact h.entry j hbefore
    · exact absurd rfl heq

theorem leave (h : Tenancy key owns registered table) {i : ι} (hi : owns i)
    (howns : ∀ j, owns' j → owns j ∧ j ≠ i) (hregistered : ∀ j, registered' j → owns' j ∧ registered j) :
    Tenancy key owns' registered' (Function.update table (key i) none) := by
  refine ⟨fun j hj => (hregistered j hj).1, fun j k hj hk => h.one j k (howns j hj).1 (howns k hk).1, fun j hj => ?_⟩
  obtain ⟨hown, hbefore⟩ := hregistered j hj
  obtain ⟨hown, hne⟩ := howns j hown
  rw [Function.update_of_ne fun heq => hne (h.one j i hown hi heq)]
  exact h.entry j hbefore

end Tenancy

end PudimNetMon
