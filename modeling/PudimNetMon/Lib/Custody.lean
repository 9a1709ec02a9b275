import Mathlib.Data.List.Nodup

/-!
# Custody of items

Items are issued to a first holder and passed on to others. `front` is the first holder's list and `back` the list of
all other holders' items, in any order.

- `Accounts exact issued front back`: no issued item is lost, and when `exact`, none is held twice;
- `Accounts.issue`, `.pass`, `.move`, `.copy`: what issuing, passing on, moving and copying an item keep;
- `NeverAgain`: a log of attempts in which an item that went through is not tried again.
-/

namespace PudimNetMon

variable {ι : Type} [DecidableEq ι]

/-- Every issued item is held, and no other; the first holder's items are held by it alone, once. When `exact`, each
item is held as often as it was issued. -/
structure Accounts (exact : Prop) (issued front back : List ι) : Prop where
  covers : ∀ i, issued.count i ≤ front.count i + back.count i
  sound : ∀ i, 0 < front.count i + back.count i → 0 < issued.count i
  single : ∀ i, 0 < front.count i → front.count i + back.count i = 1
  balanced : exact → ∀ i, front.count i + back.count i = issued.count i

namespace Accounts

variable {exact : Prop} {issued front back back' : List ι} {i : ι}

theorem nil : Accounts exact ([] : List ι) [] [] :=
  ⟨fun _ => Nat.le_refl _, fun _ h => h, nofun, fun _ _ => rfl⟩

/-- A new item is issued. -/
theorem issue (h : Accounts exact issued front back) (hi : i ∉ issued) :
    Accounts exact (issued ++ [i]) (front ++ [i]) back := by
  have hnew : front.count i + back.count i = 0 := by
    have := h.sound i
    rw [List.count_eq_zero.2 hi] at this
    omega
  have hone : ∀ j, [i].count j = if j = i then 1 else 0 := by
    intro j
    by_cases hj : j = i
    · simp [hj]
    · simp [hj, Ne.symm hj]
  refine ⟨fun j => ?_, fun j hj => ?_, fun j hj => ?_, fun he j => ?_⟩
  · have := h.covers j
    simp only [List.count_append]
    omega
  · have := h.sound j
    simp only [List.count_append] at hj ⊢
    omega
  · simp only [List.count_append, hone] at hj ⊢
    have := h.single j
    by_cases hji : j = i
    · subst hji
      rw [if_pos rfl]
      omega
    · rw [if_neg hji] at hj ⊢
      omega
  · have := h.balanced he j
    simp only [List.count_append]
    omega

/-- The first holder passes an item on. -/
theorem pass (h : Accounts exact issued (i :: front) back)
    (hm : ∀ j, back'.count j = back.count j + [i].count j) : Accounts exact issued front back' := by
  have hcons : ∀ j, (i :: front).count j = front.count j + [i].count j := fun j => by
    simp [List.count_cons, List.count_nil]
  refine ⟨fun j => ?_, fun j hj => ?_, fun j hj => ?_, fun he j => ?_⟩
  · have := h.covers j
    rw [hcons] at this
    rw [hm]
    omega
  · have := h.sound j
    rw [hcons] at this
    rw [hm] at hj
    omega
  · have := h.single j
    rw [hcons] at this
    rw [hm]
    omega
  · have := h.balanced he j
    rw [hcons] at this
    rw [hm]
    omega

/-- Items change hands among the other holders. -/
theorem move (h : Accounts exact issued front back) (hm : ∀ j, back'.count j = back.count j) :
    Accounts exact issued front back' := by
  refine ⟨fun j => ?_, fun j hj => ?_, fun j hj => ?_, fun he j => ?_⟩
  · rw [hm]
    exact h.covers j
  · rw [hm] at hj
    exact h.sound j hj
  · rw [hm]
    exact h.single j hj
  · rw [hm]
    exact h.balanced he j

/-- An item of the other holders gets another holder, which an exact account does not allow. -/
theorem copy (h : Accounts exact issued front back) (he : ¬exact) {item : Option ι}
    (hitem : ∀ i, item = some i → i ∈ back) (hm : ∀ j, back'.count j = back.count j + item.toList.count j) :
    Accounts exact issued front back' := by
  have hcopied : ∀ j, 0 < item.toList.count j → 0 < back.count j := by
    intro j hj
    have := List.count_pos_iff.1 hj
    exact List.count_pos_iff.2 (hitem j (Option.mem_toList.1 this))
  refine ⟨fun j => ?_, fun j hj => ?_, fun j hj => ?_, fun h' => absurd h' he⟩
  · have := h.covers j
    rw [hm]
    omega
  · have := h.sound j
    have := hcopied j
    rw [hm] at hj
    omega
  · have := h.single j hj
    have := hcopied j
    rw [hm]
    omega

theorem mem_iff (h : Accounts exact issued front back) : i ∈ issued ↔ i ∈ front ∨ i ∈ back := by
  have hcovers := h.covers i
  have hsound := h.sound i
  rw [← List.count_pos_iff, ← List.count_pos_iff, ← List.count_pos_iff]
  omega

/-- The first holder's items are with no other. -/
theorem not_mem_back (h : Accounts exact issued front back) (hi : i ∈ front) : i ∉ back := by
  have hfront := List.count_pos_iff.2 hi
  have := h.single i hfront
  refine List.count_eq_zero.1 ?_
  omega

/-- In an exact account an issued item is held once. -/
theorem once (h : Accounts exact issued front back) (he : exact) (hd : issued.Nodup) (hi : i ∈ issued) :
    front.count i + back.count i = 1 := by
  rw [h.balanced he i]
  exact List.count_eq_one_of_mem hd hi

end Accounts

/-- One attempt to hand something over; `item` is none when it was never issued. -/
structure Attempt (ι β : Type) where
  item : Option ι
  content : β
  ok : Bool
  deriving DecidableEq

variable {β : Type}

/-- The items that went through. -/
def delivered (log : List (Attempt ι β)) : List ι := (log.filter (·.ok)).filterMap (·.item)

/-- No item that went through is tried again. -/
def NeverAgain (log : List (Attempt ι β)) : Prop :=
  log.Pairwise fun a b => a.ok → ∀ i, a.item = some i → b.item ≠ some i

omit [DecidableEq ι] in
theorem mem_delivered {log : List (Attempt ι β)} {i : ι} : i ∈ delivered log ↔ ∃ a ∈ log, a.ok ∧ a.item = some i := by
  simp only [delivered, List.mem_filterMap, List.mem_filter, and_assoc]

omit [DecidableEq ι] in
theorem delivered_append (log : List (Attempt ι β)) (a : Attempt ι β) :
    delivered (log ++ [a]) = delivered log ++ (if a.ok then a.item.toList else []) := by
  cases hok : a.ok <;> cases hi : a.item <;> simp [delivered, hok, hi]

omit [DecidableEq ι] in
/-- An item may be tried when it has not gone through. -/
theorem NeverAgain.append {log : List (Attempt ι β)} (h : NeverAgain log) {a : Attempt ι β}
    (ha : ∀ i, a.item = some i → i ∉ delivered log) : NeverAgain (log ++ [a]) := by
  refine List.pairwise_append.2 ⟨h, List.pairwise_singleton .., fun b hb c hc hok i hi hci => ?_⟩
  rw [List.mem_singleton] at hc
  subst hc
  exact ha i hci (mem_delivered.2 ⟨b, hb, hok, hi⟩)

end PudimNetMon
