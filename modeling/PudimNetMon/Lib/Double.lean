import Mathlib.Algebra.Ring.Int.Defs
import Mathlib.Algebra.Ring.Nat
import Mathlib.Data.Nat.Log

/-!
# IEEE 754 binary64 values

A double is its 64 bits. Comparisons go through `key`: the exponent and fraction bits read as one number are
monotone in the magnitude, so a signed copy of that number orders all doubles that are not NaN, with `-0 = +0`.
`ofInt` and `ofRatio` are conversions to the nearest double, ties to even, and `toFixed` is the text printed in a fixed
number of decimals.
-/

namespace PudimNetMon

structure Double where
  bits : BitVec 64
  deriving DecidableEq, Repr

namespace Double

/-- Exponent and fraction as one number. -/
def mag (d : Double) : Nat := d.bits.toNat % 2 ^ 63

def neg (d : Double) : Bool := 2 ^ 63 ≤ d.bits.toNat

/-- The bits of an infinity without its sign. -/
def infMag : Nat := 0x7ff * 2 ^ 52

def isNaN (d : Double) : Bool := infMag < d.mag

def isInf (d : Double) : Bool := d.mag == infMag

def isFinite (d : Double) : Bool := d.mag < infMag

/-- The order of the doubles that are not NaN. -/
def key (d : Double) : Int := if d.neg then -(d.mag : Int) else d.mag

/-- `a < b`; false when either side is NaN. -/
def lt (a b : Double) : Bool := !a.isNaN && !b.isNaN && decide (a.key < b.key)

def zero : Double := ⟨0⟩

instance : Inhabited Double := ⟨zero⟩

/-- `a / b` to the nearest natural number, ties to even. -/
def roundHalfEven (a b : Nat) : Nat :=
  let q := a / b
  let r := a % b
  if 2 * r < b then q else if b < 2 * r then q + 1 else q + q % 2

/-- The nearest double of a natural number below `2^1023`. A carry of the rounded fraction lands in the exponent. -/
def ofNat (n : Nat) : Double :=
  if n = 0 then zero
  else
    let e := n.log2
    let m := if e ≤ 52 then n * 2 ^ (52 - e) else roundHalfEven n (2 ^ (e - 52))
    ⟨BitVec.ofNat 64 ((e + 1022) * 2 ^ 52 + m)⟩

def negate (d : Double) : Double := ⟨BitVec.ofNat 64 ((d.bits.toNat + 2 ^ 63) % 2 ^ 64)⟩

/-- `static_cast<double>` of an integer. -/
def ofInt : Int → Double
  | .ofNat n => ofNat n
  | .negSucc n => (ofNat (n + 1)).negate

/-- The fraction with its leading bit, and the exponent of its last bit plus 1074. -/
def mantissa (d : Double) : Nat × Nat :=
  let e := d.mag / 2 ^ 52
  let f := d.mag % 2 ^ 52
  if e = 0 then (f, 0) else (f + 2 ^ 52, e - 1)

/-- The integer part, for a finite double. -/
def trunc (d : Double) : Int :=
  let (m, e) := d.mantissa
  let n := if 1074 ≤ e then m * 2 ^ (e - 1074) else m / 2 ^ (1074 - e)
  if d.neg then -(n : Int) else n

/-- The magnitude in units of `10^-p`, rounded half to even. -/
def scaled (p : Nat) (d : Double) : Nat :=
  let (m, e) := d.mantissa
  if 1074 ≤ e then m * 10 ^ p * 2 ^ (e - 1074) else roundHalfEven (m * 10 ^ p) (2 ^ (1074 - e))

/-- A number in at least `p` digits. -/
def padDigits (p n : Nat) : String :=
  let s := toString n
  String.ofList (List.replicate (p - s.length) '0') ++ s

/-- The `%.pf` format, for at least one decimal. -/
def toFixed (p : Nat) (d : Double) : String :=
  let sign := if d.neg then "-" else ""
  if d.isNaN then sign ++ "nan"
  else if d.isInf then sign ++ "inf"
  else sign ++ toString (d.scaled p / 10 ^ p) ++ "." ++ padDigits p (d.scaled p % 10 ^ p)

/-- `std::to_string(double)`, the `%f` format. -/
def toFixed6 (d : Double) : String := d.toFixed 6

/-- The nearest double of a quotient of natural numbers below `2^52` with a positive divisor. -/
def ofRatio (a b : Nat) : Double :=
  if a = 0 then zero
  else
    -- `2^k ≤ 2^52 * (a / b) < 2^(k+1)`
    let k := (a * 2 ^ 52 / b).log2
    let m := if k ≤ 52 then roundHalfEven (a * 2 ^ (104 - k)) b else roundHalfEven (a * 2 ^ 52) (b * 2 ^ (k - 52))
    ⟨BitVec.ofNat 64 ((k + 970) * 2 ^ 52 + m)⟩

/-! ## Integers are finite -/

theorem roundHalfEven_le (a b : Nat) : roundHalfEven a b ≤ a / b + 1 := by
  unfold roundHalfEven
  dsimp only
  split
  · omega
  · split <;> omega

/-- The fraction of a natural number with its leading bit, rounded. -/
theorem ofNat_fraction_le (n : Nat) :
    (if n.log2 ≤ 52 then n * 2 ^ (52 - n.log2) else roundHalfEven n (2 ^ (n.log2 - 52))) ≤ 2 ^ 53 := by
  have hlog : n < 2 ^ (n.log2 + 1) := Nat.lt_log2_self
  split
  · rename_i h
    have hpow : 2 ^ (n.log2 + 1) * 2 ^ (52 - n.log2) = 2 ^ 53 := by
      rw [← Nat.pow_add]
      congr 1
      omega
    rw [← hpow]
    exact Nat.mul_le_mul_right _ (Nat.le_of_lt hlog)
  · rename_i h
    refine Nat.le_trans (roundHalfEven_le n _) (Nat.div_lt_of_lt_mul ?_)
    have hpow : 2 ^ (n.log2 - 52) * 2 ^ 53 = 2 ^ (n.log2 + 1) := by
      rw [← Nat.pow_add]
      congr 1
      omega
    rw [hpow]
    exact hlog

theorem mag_ofNat_lt {n : Nat} (h : n ≤ 2 ^ 64) : (ofNat n).mag < infMag := by
  unfold ofNat
  split
  · decide
  · rename_i hn
    dsimp only
    have hfraction := ofNat_fraction_le n
    have hlog : n.log2 ≤ 64 := by
      have : 2 ^ n.log2 ≤ 2 ^ 64 := Nat.le_trans (Nat.log2_self_le hn) h
      exact (Nat.pow_le_pow_iff_right (by decide)).1 this
    generalize (if n.log2 ≤ 52 then n * 2 ^ (52 - n.log2) else roundHalfEven n (2 ^ (n.log2 - 52))) = m at hfraction ⊢
    have hbits : (n.log2 + 1022) * 2 ^ 52 + m < infMag := by
      unfold infMag
      omega
    refine Nat.lt_of_le_of_lt ?_ hbits
    unfold mag
    rw [BitVec.toNat_ofNat]
    exact Nat.le_trans (Nat.mod_le _ _) (Nat.mod_le _ _)

theorem mag_negate (d : Double) : d.negate.mag = d.mag := by
  unfold negate mag
  rw [BitVec.toNat_ofNat]
  have := d.bits.isLt
  omega

/-- The nearest double of an integer within 64 bits is finite. -/
theorem isFinite_ofInt {n : Int} (h : n.natAbs ≤ 2 ^ 64) : (ofInt n).isFinite = true := by
  unfold isFinite
  rw [decide_eq_true_eq]
  cases n with
  | ofNat n => exact mag_ofNat_lt h
  | negSucc n =>
    rw [ofInt, mag_negate]
    exact mag_ofNat_lt h

/-! ## Integers below `2^53` are exact -/

/-- The bits of a positive integer below `2^53`: its exponent, and its digits moved up to the leading bit. -/
theorem bits_ofNat {n : Nat} (hpos : 0 < n) (h : n < 2 ^ 53) :
    ∃ e f, e ≤ 52 ∧ (ofNat n).bits.toNat = (e + 1023) * 2 ^ 52 + f ∧ f < 2 ^ 52 ∧ f + 2 ^ 52 = n * 2 ^ (52 - e) := by
  have hlow : 2 ^ n.log2 ≤ n := Nat.log2_self_le (by omega)
  have hhigh : n < 2 ^ (n.log2 + 1) := Nat.lt_log2_self
  have hlog : n.log2 ≤ 52 := by
    have : n.log2 < 53 := (Nat.log2_lt (by omega)).2 h
    omega
  have hsplit : 2 ^ n.log2 * 2 ^ (52 - n.log2) = 2 ^ 52 := by
    rw [← Nat.pow_add, Nat.add_sub_cancel' hlog]
  have hleading := Nat.mul_le_mul_right (2 ^ (52 - n.log2)) hlow
  have hcarry := Nat.mul_lt_mul_of_pos_right hhigh (Nat.two_pow_pos (52 - n.log2))
  rw [Nat.pow_succ, Nat.mul_right_comm, hsplit] at hcarry
  rw [hsplit] at hleading
  refine ⟨n.log2, n * 2 ^ (52 - n.log2) - 2 ^ 52, hlog, ?_, by omega, by omega⟩
  unfold ofNat
  rw [if_neg (by omega)]
  dsimp only
  rw [if_pos hlog, BitVec.toNat_ofNat]
  omega

theorem mag_ofNat_pos {n : Nat} (hpos : 0 < n) (h : n < 2 ^ 53) : 0 < (ofNat n).mag := by
  obtain ⟨e, f, he, hbits, hf, -⟩ := bits_ofNat hpos h
  unfold mag
  omega

theorem neg_ofNat {n : Nat} (h : n < 2 ^ 53) : (ofNat n).neg = false := by
  rcases Nat.eq_zero_or_pos n with rfl | hpos
  · decide
  · obtain ⟨e, f, he, hbits, hf, -⟩ := bits_ofNat hpos h
    unfold neg
    rw [decide_eq_false_iff_not]
    omega

theorem neg_negate {d : Double} (h : d.neg = false) : d.negate.neg = true := by
  unfold neg negate at *
  rw [decide_eq_false_iff_not] at h
  rw [decide_eq_true_eq, BitVec.toNat_ofNat]
  have := d.bits.isLt
  omega

theorem mantissa_negate (d : Double) : d.negate.mantissa = d.mantissa := by
  unfold mantissa
  rw [mag_negate]

theorem trunc_eq (d : Double) : d.trunc =
    let n : Nat := if 1074 ≤ d.mantissa.2 then d.mantissa.1 * 2 ^ (d.mantissa.2 - 1074)
      else d.mantissa.1 / 2 ^ (1074 - d.mantissa.2)
    if d.neg then -(n : Int) else n := by
  unfold trunc
  rfl

theorem mantissa_ofNat {n : Nat} (hpos : 0 < n) (h : n < 2 ^ 53) :
    ∃ e, e ≤ 52 ∧ (ofNat n).mantissa = (n * 2 ^ (52 - e), e + 1022) := by
  obtain ⟨e, f, he, hbits, hf, hdigits⟩ := bits_ofNat hpos h
  have hmag : (ofNat n).mag = (e + 1023) * 2 ^ 52 + f := by
    unfold mag
    omega
  refine ⟨e, he, ?_⟩
  unfold mantissa
  dsimp only
  rw [hmag, if_neg (by omega), ← hdigits]
  refine Prod.ext ?_ ?_ <;> simp only <;> omega

theorem mantissa_zero : (ofNat 0).mantissa = (0, 0) := by decide

/-- A natural number below `2^53` is its own double. -/
theorem trunc_ofNat {n : Nat} (h : n < 2 ^ 53) : (ofNat n).trunc = n := by
  rcases Nat.eq_zero_or_pos n with rfl | hpos
  · rw [trunc_eq, mantissa_zero]
    simp only [Nat.zero_div]
    decide
  · have hneg := neg_ofNat h
    obtain ⟨e, he, hmantissa⟩ := mantissa_ofNat hpos h
    rw [trunc_eq, hmantissa, hneg, if_neg Bool.false_ne_true]
    dsimp only
    split
    · obtain rfl : e = 52 := by omega
      simp
    · rw [show 1074 - (e + 1022) = 52 - e by omega, Nat.mul_div_cancel _ (Nat.two_pow_pos _)]

theorem roundHalfEven_mul (a : Nat) {b : Nat} (hb : 0 < b) : roundHalfEven (a * b) b = a := by
  simp [roundHalfEven, Nat.mul_div_cancel _ hb, hb]

theorem scaled_ofNat (p : Nat) {n : Nat} (h : n < 2 ^ 53) : (ofNat n).scaled p = n * 10 ^ p := by
  unfold scaled
  rcases Nat.eq_zero_or_pos n with rfl | hpos
  · rw [mantissa_zero]
    dsimp only
    have hzero : ∀ k, roundHalfEven 0 (2 ^ k) = 0 := fun k => by simpa using roundHalfEven_mul 0 (Nat.two_pow_pos k)
    rw [if_neg (by decide), Nat.zero_mul, hzero]
  · obtain ⟨e, he, hmantissa⟩ := mantissa_ofNat hpos h
    rw [hmantissa]
    dsimp only
    split
    · obtain rfl : e = 52 := by omega
      simp
    · rw [show 1074 - (e + 1022) = 52 - e by omega, Nat.mul_right_comm, roundHalfEven_mul _ (Nat.two_pow_pos _)]

/-- A natural number is printed with zeros behind the point. -/
theorem toFixed_ofNat (p : Nat) {n : Nat} (h : n < 2 ^ 53) :
    (ofNat n).toFixed p = toString n ++ "." ++ padDigits p 0 := by
  have hfinite : (ofNat n).mag < infMag := mag_ofNat_lt (by omega)
  have hnan : (ofNat n).isNaN = false := decide_eq_false (by omega)
  have hinf : (ofNat n).isInf = false := beq_false_of_ne hfinite.ne
  have hpow : 0 < 10 ^ p := Nat.pow_pos (by decide)
  unfold toFixed
  rw [neg_ofNat h, hnan, hinf, scaled_ofNat p h, Nat.mul_div_cancel _ hpow, Nat.mul_mod_left]
  simp

theorem trunc_negate {d : Double} (h : d.neg = false) : d.negate.trunc = -d.trunc := by
  rw [trunc_eq, trunc_eq d, mantissa_negate, neg_negate h, h, if_pos rfl, if_neg Bool.false_ne_true]

/-- **The integer part of an integer is the integer.** -/
theorem trunc_ofInt {n : Int} (h : n.natAbs < 2 ^ 53) : (ofInt n).trunc = n := by
  cases n with
  | ofNat n => exact trunc_ofNat h
  | negSucc n =>
    have hsucc : n + 1 < 2 ^ 53 := h
    rw [ofInt, trunc_negate (neg_ofNat hsucc), trunc_ofNat hsucc, Int.negSucc_eq]
    rfl

theorem mag_ofInt_pos {n : Int} (hne : n ≠ 0) (h : n.natAbs < 2 ^ 53) : 0 < (ofInt n).mag := by
  cases n with
  | ofNat n => exact mag_ofNat_pos (by simp at hne; omega) h
  | negSucc n =>
    rw [ofInt, mag_negate]
    exact mag_ofNat_pos (Nat.succ_pos n) h

example : (ofInt 5).lt (ofInt 30) = true := by decide
example : (ofInt (-1)).toFixed6 = "-1.000000" := by decide
example : (ofRatio 7 2).negate.trunc = -3 := by decide
example : (ofRatio 125 1000).toFixed 2 = "0.12" := by decide
example : (ofRatio 145 1000).toFixed 2 = "0.14" := by decide

end Double

end PudimNetMon
