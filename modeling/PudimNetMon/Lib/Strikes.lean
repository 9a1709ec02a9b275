import Mathlib.Algebra.BigOperators.Group.List.Basic
import Mathlib.Algebra.GroupWithZero.Nat

/-!
# Strikes

A counter of failures in a row that fires on each `limit`-th one and starts again at a success. In closed form it has
fired once for every `limit` failures of each streak (`record_streaks`).
-/

namespace PudimNetMon

structure Strikes where
  strikes : Nat := 0
  fired : Nat := 0
  deriving DecidableEq, Repr

namespace Strikes

def record (limit : Nat) (s : Strikes) (ok : Bool) : Strikes :=
  if ok then { s with strikes := 0 }
  else if s.strikes + 1 < limit then { s with strikes := s.strikes + 1 }
  else { strikes := 0, fired := s.fired + 1 }

/-- The lengths of the streaks of failures, one in front of each success and one behind the last. -/
def streaks (history : List Bool) : List Nat := (history.splitOnP id).map List.length

theorem streaks_nil : streaks [] = [0] := by simp [streaks]

theorem streaks_ok (history : List Bool) : streaks (true :: history) = 0 :: streaks history := by
  simp [streaks, List.splitOnP_cons_eq_if_modifyHead]

/-- A failure makes the first streak longer. -/
theorem streaks_failed {history : List Bool} {n : Nat} {rest : List Nat} (h : streaks history = n :: rest) :
    streaks (false :: history) = (n + 1) :: rest := by
  unfold streaks at h ⊢
  cases hs : history.splitOnP id with
  | nil => rw [hs] at h; cases h
  | cons streak streaks =>
    rw [hs] at h
    cases h
    simp [List.splitOnP_cons_eq_if_modifyHead, hs]

theorem streaks_ne_nil (history : List Bool) : ∃ n rest, streaks history = n :: rest := by
  induction history with
  | nil => exact ⟨0, [], streaks_nil⟩
  | cons ok history ih =>
    obtain ⟨n, rest, h⟩ := ih
    cases ok with
    | true => exact ⟨0, _, streaks_ok history⟩
    | false => exact ⟨n + 1, rest, streaks_failed h⟩

/-- The counter behind a history: the strikes it starts with belong to the first streak. -/
theorem record_streaks {limit : Nat} (hlimit : 0 < limit) (history : List Bool) :
    ∀ {s : Strikes} {n : Nat} {rest : List Nat}, s.strikes < limit → streaks history = n :: rest →
      (history.foldl (record limit) s).fired =
          s.fired + (((s.strikes + n) :: rest).map (· / limit)).sum ∧
        (history.foldl (record limit) s).strikes =
          ((s.strikes + n) :: rest).getLast (List.cons_ne_nil _ _) % limit := by
  induction history with
  | nil =>
    intro s n rest hs h
    rw [streaks_nil] at h
    cases h
    simp [Nat.div_eq_of_lt hs, Nat.mod_eq_of_lt hs]
  | cons ok history ih =>
    intro s n rest hs h
    obtain ⟨n', rest', hrest⟩ := streaks_ne_nil history
    cases ok with
    | true =>
      rw [streaks_ok, hrest] at h
      cases h
      obtain ⟨hfired, hstrikes⟩ := @ih { s with strikes := 0 } n' rest' hlimit hrest
      simp only [Nat.zero_add] at hfired hstrikes
      simp only [List.foldl_cons, record, if_true]
      rw [hfired, hstrikes]
      simp [Nat.div_eq_of_lt hs]
    | false =>
      rw [streaks_failed hrest] at h
      cases h
      simp only [List.foldl_cons, record, Bool.false_eq_true, if_false]
      split
      · rename_i hlt
        obtain ⟨hfired, hstrikes⟩ := @ih { s with strikes := s.strikes + 1 } n' rest hlt hrest
        rw [hfired, hstrikes, Nat.add_right_comm s.strikes 1 n', Nat.add_assoc s.strikes n' 1]
        exact ⟨rfl, rfl⟩
      · rename_i hge
        have hfull : s.strikes + (n' + 1) = limit + n' := by omega
        obtain ⟨hfired, hstrikes⟩ := @ih { strikes := 0, fired := s.fired + 1 } n' rest hlimit hrest
        rw [hfired, hstrikes, hfull]
        constructor
        · simp only [List.map_cons, List.sum_cons, Nat.zero_add, Nat.add_div_left n' hlimit]
          omega
        · cases rest with
          | nil => simp
          | cons m more => simp [List.getLast_cons]

end Strikes

end PudimNetMon
