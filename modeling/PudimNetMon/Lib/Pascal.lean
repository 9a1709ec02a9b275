import Mathlib.Data.List.TakeWhile
import PudimNetMon.Lib.Decimal
import PudimNetMon.Lib.FormUrl

/-!
# Integers in Pascal text

`StrToIntDef` reads a 32-bit integer: blanks and a sign in front, decimal digits, or hexadecimal ones behind `$`, `x`
or `0x`; a text that is no such integer reads as a default. `strToIntDef_pos_iff` says when a numeral without these
forms is read as a positive number.
-/

namespace PudimNetMon.Pascal

/-- The digits of a number below `2^32`; the loop stops where the next digit would overflow. -/
def digits (base limit : Nat) (value : Char → Option Nat) : Nat → List Char → Option Nat
  | n, [] => some n
  | n, c :: cs =>
    match value c with
    | none => none
    | some d => if limit < n then none else digits base limit value (n * base + d) cs

def decimalValue (c : Char) : Option Nat := if c.isDigit then some (c.toNat - 48) else none

/-- Decimal digits within 32 bits. -/
def decimal (negative : Bool) (ds : List Char) : Option Int :=
  if ds = [] then none
  else
    match digits 10 (0x7fffffff / 10) decimalValue 0 ds with
    | none => none
    | some n => if negative then (if n ≤ 2 ^ 31 then some (-(n : Int)) else none)
      else if n < 2 ^ 31 then some n else none

/-- Hexadecimal digits are the bits of the number. -/
def hexadecimal (negative : Bool) (ds : List Char) : Option Int :=
  if ds = [] then none
  else (digits 16 (0x7fffffff / 8) FormUrl.hexValue 0 ds).map fun n =>
    let bits := Int.bmod n (2 ^ 32)
    if negative then Int.bmod (-bits) (2 ^ 32) else bits

def unsigned (negative : Bool) : List Char → Option Int
  | '$' :: ds => hexadecimal negative ds
  | 'x' :: ds => hexadecimal negative ds
  | 'X' :: ds => hexadecimal negative ds
  | '0' :: 'x' :: ds => hexadecimal negative ds
  | '0' :: 'X' :: ds => hexadecimal negative ds
  | ds => decimal negative ds

/-- `Val`: text ends at a NUL. -/
def val (s : List Char) : Option Int :=
  match (s.takeWhile (· ≠ '\x00')).dropWhile (· = ' ') with
  | '-' :: cs => unsigned true cs
  | '+' :: cs => unsigned false cs
  | cs => unsigned false cs

def strToIntDef (s : List Char) (default : Int) : Int := (val s).getD default

/-- `IntToStr` -/
def intToStr (n : Int) : List Char := (toString n).toList

/-! ## Decimal numerals -/

theorem le_ofDigitChars {ds : List Char} {n : Nat} : n ≤ Nat.ofDigitChars 10 ds n := by
  rw [Nat.ofDigitChars_eq_ofDigitChars_zero]
  have hpos : 0 < 10 ^ ds.length := Nat.pow_pos (by decide)
  have hle : n ≤ 10 ^ ds.length * n := Nat.le_mul_of_pos_left n hpos
  omega

/-- What the loop reads are digits, and their number. -/
theorem digits_eq_some {limit n m : Nat} {ds : List Char} (h : digits 10 limit decimalValue n ds = some m) :
    ds.all Char.isDigit = true ∧ m = Nat.ofDigitChars 10 ds n := by
  induction ds generalizing n with
  | nil =>
    rw [Nat.ofDigitChars_nil]
    exact ⟨rfl, (Option.some.inj h).symm⟩
  | cons c ds ih =>
    unfold digits decimalValue at h
    by_cases hc : c.isDigit
    · rw [if_pos hc] at h
      dsimp only at h
      split at h
      · cases h
      · obtain ⟨hall, hm⟩ := ih h
        refine ⟨by simp [hc, hall], ?_⟩
        rw [Nat.ofDigitChars_cons, hm, Nat.mul_comm 10 n]
        rfl
    · rw [if_neg hc] at h
      cases h

/-- The digits of a number within 31 bits are read to their end. -/
theorem digits_of_isDigit {n : Nat} {ds : List Char} (h : ds.all Char.isDigit = true)
    (hlt : Nat.ofDigitChars 10 ds n < 2 ^ 31) :
    digits 10 (0x7fffffff / 10) decimalValue n ds = some (Nat.ofDigitChars 10 ds n) := by
  induction ds generalizing n with
  | nil => rw [digits, Nat.ofDigitChars_nil]
  | cons c ds ih =>
    rw [List.all_cons, Bool.and_eq_true] at h
    rw [Nat.ofDigitChars_cons] at hlt ⊢
    have hle : 10 * n + (c.toNat - '0'.toNat) ≤ Nat.ofDigitChars 10 ds (10 * n + (c.toNat - '0'.toNat)) :=
      le_ofDigitChars
    unfold digits decimalValue
    rw [if_pos h.1]
    dsimp only
    rw [if_neg (by omega), show n * 10 + (c.toNat - 48) = 10 * n + (c.toNat - '0'.toNat) by
      rw [Nat.mul_comm]; rfl]
    exact ih h.2 hlt

theorem decimal_eq_some {ds : List Char} {n : Int} (h : decimal false ds = some n) :
    n < 2 ^ 31 ∧ Decimal.natural? ds = some n.toNat ∧ 0 ≤ n := by
  unfold decimal at h
  split at h
  · cases h
  rename_i hne
  split at h
  · cases h
  · rename_i m hm
    obtain ⟨hall, hvalue⟩ := digits_eq_some hm
    rw [if_neg (by decide), Option.ite_none_right_eq_some] at h
    obtain ⟨hlt, hn⟩ := h
    rw [← Option.some.inj hn, Decimal.natural?, if_pos ⟨hne, hall⟩, Int.toNat_natCast, hvalue]
    exact ⟨by omega, rfl, by omega⟩

theorem decimal_of_natural {ds : List Char} {n : Nat} (h : Decimal.natural? ds = some n) (hlt : n < 2 ^ 31) :
    decimal false ds = some (n : Int) := by
  unfold Decimal.natural? at h
  rw [Option.ite_none_right_eq_some] at h
  obtain ⟨⟨hne, hall⟩, hvalue⟩ := h
  have hn : Nat.ofDigitChars 10 ds 0 = n := Option.some.inj hvalue
  unfold decimal
  rw [if_neg hne, digits_of_isDigit hall (by omega), hn]
  dsimp only
  rw [if_neg (by decide), if_pos hlt]

/-- No character that stands for a blank, the end or a base. -/
def isSimple (c : Char) : Bool := c ∉ ['\x00', ' ', '$', 'x', 'X']

theorem unsigned_simple {negative : Bool} {cs : List Char} (h : ∀ c ∈ cs, isSimple c = true) :
    unsigned negative cs = decimal negative cs := by
  have hnot : ∀ {c}, isSimple c = false → c ∉ cs := fun hc hmem => by
    have hsimple := h _ hmem
    rw [hc] at hsimple
    cases hsimple
  unfold unsigned
  split
  · exact absurd List.mem_cons_self (hnot (by decide))
  · exact absurd List.mem_cons_self (hnot (by decide))
  · exact absurd List.mem_cons_self (hnot (by decide))
  · exact absurd (List.mem_cons_of_mem _ List.mem_cons_self) (hnot (by decide))
  · exact absurd (List.mem_cons_of_mem _ List.mem_cons_self) (hnot (by decide))
  · rfl

theorem val_simple {c : Char} {cs : List Char} (h : ∀ d ∈ c :: cs, isSimple d = true) (hplus : c ≠ '+') :
    val (c :: cs) = if c = '-' then decimal true cs else decimal false (c :: cs) := by
  have hends : (c :: cs).takeWhile (· ≠ '\x00') = c :: cs := by
    rw [List.takeWhile_eq_self_iff]
    intro d hd
    have hsimple := h d hd
    simp only [isSimple, List.mem_cons, not_or, decide_eq_true_eq] at hsimple
    simpa using hsimple.1
  have hblank : c ≠ ' ' := by
    have hsimple := h c List.mem_cons_self
    simp only [isSimple, List.mem_cons, not_or, decide_eq_true_eq] at hsimple
    exact hsimple.2.1
  unfold val
  rw [hends, List.dropWhile_cons_of_neg (by simpa using hblank)]
  split
  · rename_i ds hds
    rw [List.cons.injEq] at hds
    rw [if_pos hds.1, ← hds.2, unsigned_simple fun d hd => h d (List.mem_cons_of_mem c hd)]
  · rename_i ds hds
    exact absurd (List.cons.inj hds).1 hplus
  · rename_i hminus _
    rw [if_neg fun hc => hminus cs (by rw [hc]), unsigned_simple h]

theorem decimal_negative_le {ds : List Char} {n : Int} (h : decimal true ds = some n) : n ≤ 0 := by
  unfold decimal at h
  split at h
  · cases h
  split at h
  · cases h
  · rw [if_pos rfl, Option.ite_none_right_eq_some] at h
    have hn := Option.some.inj h.2
    omega

/-- **A numeral is read as a positive number exactly when it is the numeral of one within 31 bits.** -/
theorem strToIntDef_pos_iff {c : Char} {cs : List Char} (h : ∀ d ∈ c :: cs, isSimple d = true) (hplus : c ≠ '+')
    {n : Int} (hpos : 0 < n) :
    strToIntDef (c :: cs) 0 = n ↔ n < 2 ^ 31 ∧ Decimal.integer? (c :: cs) = some n := by
  unfold strToIntDef
  rw [val_simple h hplus]
  by_cases hc : c = '-'
  · rw [if_pos hc, hc]
    constructor
    · intro hread
      cases hd : decimal true cs with
      | none =>
        rw [hd, Option.getD_none] at hread
        omega
      | some m =>
        have hle := decimal_negative_le hd
        rw [hd, Option.getD_some] at hread
        omega
    · rintro ⟨-, hread⟩
      have hneg : (Decimal.natural? cs).map (fun n : Nat => -(n : Int)) = some n := hread
      obtain ⟨m, -, hm⟩ := Option.map_eq_some_iff.1 hneg
      omega
  · have hinteger : Decimal.integer? (c :: cs) = (Decimal.natural? (c :: cs)).map fun n : Nat => (n : Int) := by
      unfold Decimal.integer?
      split
      · rename_i heq
        exact absurd (List.cons.inj heq).1 hc
      · rfl
    rw [if_neg hc, hinteger]
    constructor
    · intro hread
      cases hd : decimal false (c :: cs) with
      | none =>
        rw [hd, Option.getD_none] at hread
        omega
      | some m =>
        rw [hd, Option.getD_some] at hread
        obtain ⟨hlt, hm, -⟩ := decimal_eq_some (hread ▸ hd)
        rw [hm, Option.map_some, Int.toNat_of_nonneg (by omega)]
        exact ⟨hlt, rfl⟩
    · rintro ⟨hlt, hread⟩
      obtain ⟨m, hm, rfl⟩ := Option.map_eq_some_iff.1 hread
      rw [decimal_of_natural hm (by omega), Option.getD_some]

end PudimNetMon.Pascal
