import Mathlib.Algebra.Ring.Int.Defs
import Mathlib.Algebra.Ring.Nat
import Mathlib.Data.String.Basic

/-!
# Decimal integers

`natural?` and `integer?` read a text of digits, the latter with a sign in front of a negative number; what `toString`
prints is read back.
-/

namespace PudimNetMon.Decimal

def natural? (ds : List Char) : Option Nat :=
  if ds ≠ [] ∧ ds.all Char.isDigit then some (Nat.ofDigitChars 10 ds 0) else none

def integer? : List Char → Option Int
  | '-' :: ds => (natural? ds).map fun n : Nat => -(n : Int)
  | ds => (natural? ds).map fun n : Nat => (n : Int)

theorem isDigit_of_mem_toDigits {n : Nat} {c : Char} (h : c ∈ Nat.toDigits 10 n) : c.isDigit = true :=
  Nat.isDigit_of_mem_toDigits (by decide) (by decide) h

theorem natural?_toDigits (n : Nat) : natural? (Nat.toDigits 10 n) = some n := by
  unfold natural?
  rw [if_pos ⟨Nat.toDigits_ne_nil, List.all_eq_true.2 fun c hc => isDigit_of_mem_toDigits hc⟩,
    Nat.ofDigitChars_ten_toDigits]

/-- The digits of an integer, behind a sign if it is negative. -/
theorem toList_toString (n : Int) : (toString n).toList =
    if n < 0 then '-' :: Nat.toDigits 10 n.natAbs else Nat.toDigits 10 n.natAbs := by
  cases n with
  | ofNat n => exact Nat.toList_repr
  | negSucc n =>
    rw [if_pos (Int.negSucc_lt_zero n)]
    show ("-" ++ Nat.repr (n + 1)).toList = _
    rw [String.toList_append, Nat.toList_repr]
    rfl

theorem integer?_of_isDigit {ds : List Char} (h : ∀ c ∈ ds, c.isDigit = true) :
    integer? ds = (natural? ds).map fun n : Nat => (n : Int) := by
  cases ds with
  | nil => rfl
  | cons c cs =>
    rw [List.forall_mem_cons] at h
    unfold integer?
    split
    · rename_i heq
      cases heq
      exact absurd h.1 (by decide)
    · rfl

theorem integer?_toString (n : Int) : integer? (toString n).toList = some n := by
  rw [toList_toString]
  split
  · rw [integer?, natural?_toDigits, Option.map_some]
    exact congrArg some (by omega)
  · rw [integer?_of_isDigit fun c hc => isDigit_of_mem_toDigits hc, natural?_toDigits, Option.map_some]
    exact congrArg some (by omega)

/-- What is printed is digits and a sign. -/
theorem mem_toString {n : Int} {c : Char} (h : c ∈ (toString n).toList) : c.isDigit = true ∨ c = '-' := by
  rw [toList_toString] at h
  split at h
  · rcases List.mem_cons.1 h with rfl | h
    · exact .inr rfl
    · exact .inl (isDigit_of_mem_toDigits h)
  · exact .inl (isDigit_of_mem_toDigits h)

example : integer? "-017".toList = some (-17) := by decide
example : integer? "1.5".toList = none := by decide

end PudimNetMon.Decimal
