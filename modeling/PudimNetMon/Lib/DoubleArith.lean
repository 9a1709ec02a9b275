import Mathlib.Algebra.Order.Field.Power
import Mathlib.Data.Rat.Floor
import Mathlib.Tactic.Positivity
import PudimNetMon.Lib.Double
import PudimNetMon.Lib.Rounding

/-!
# Arithmetic of doubles

A finite double is a multiple of `2^-1074`, its unit. An operation takes the exact result as a rational number and
returns the nearest double, ties to even; from `2^1024` on that is an infinity. NaN, the infinities and the signs of the
zeros are those of IEEE 754, with one NaN.

- `nearest_near`: how far the nearest double is from a number;
- `nearest_exact`: a number that is a double is its own nearest double.
-/

namespace PudimNetMon.Double

/-- One is `2^1074` units. -/
@[irreducible] def unitExp : Nat := 1074

/-- A number below `2^1023` has a finite double nearest to it. -/
@[irreducible] def finiteExp : Nat := 1023

/-- The magnitude in units. -/
def units (d : Double) : Nat := d.mantissa.1 * 2 ^ d.mantissa.2

/-- The value of a finite double. -/
def value (d : Double) : ℚ := (if d.neg then -1 else 1) * (d.units / 2 ^ unitExp)

def nan : Double := ⟨0x7ff8000000000000⟩

/-- The double with a sign and a magnitude. -/
def ofMag (neg : Bool) (n : Nat) : Double := ⟨BitVec.ofNat 64 ((if neg then 2 ^ 63 else 0) + n)⟩

/-- The magnitude of the double nearest to `a / b`, ties to even. A carry of the rounded fraction lands in the
exponent, and at the end of the range in the infinity. -/
def nearestMag (a b : Nat) : Nat :=
  let e := (a * 2 ^ unitExp / b).log2 - 52
  min infMag (e * 2 ^ 52 + roundHalfEven (a * 2 ^ unitExp) (b * 2 ^ e))

/-- The double nearest to a number's magnitude, with a sign. -/
def nearest (neg : Bool) (x : ℚ) : Double := ofMag neg (nearestMag x.num.natAbs x.den)

/-- The double nearest to a number. -/
def ofRat (x : ℚ) : Double := nearest (decide (x < 0)) x

/-- A number as it is after an operation that does not overflow. -/
def rnd (x : ℚ) : ℚ := (ofRat x).value

/-- The value of a double, if it is finite. -/
def value? (d : Double) : Option ℚ := if d.isFinite then some d.value else none

/-- A number as it is after an operation, if that does not overflow. -/
def rounded? (x : ℚ) : Option ℚ := if (ofRat x).isFinite then some (rnd x) else none

def add (a b : Double) : Double :=
  if a.isNaN || b.isNaN then nan
  else if a.isInf then (if b.isInf && a.neg != b.neg then nan else a)
  else if b.isInf then b
  else nearest (if a.value + b.value = 0 then a.neg && b.neg else decide (a.value + b.value < 0)) (a.value + b.value)

def sub (a b : Double) : Double := a.add b.negate

def mul (a b : Double) : Double :=
  if a.isNaN || b.isNaN then nan
  else if a.isInf || b.isInf then
    (if a.mag = 0 || b.mag = 0 then nan else ofMag (a.neg != b.neg) infMag)
  else nearest (a.neg != b.neg) (a.value * b.value)

def div (a b : Double) : Double :=
  if a.isNaN || b.isNaN then nan
  else if a.isInf then (if b.isInf then nan else ofMag (a.neg != b.neg) infMag)
  else if b.isInf then ofMag (a.neg != b.neg) 0
  else if b.mag = 0 then (if a.mag = 0 then nan else ofMag (a.neg != b.neg) infMag)
  else nearest (a.neg != b.neg) (a.value / b.value)

/-- The nearest integer, halves up: `Math.round` of JavaScript. -/
def roundHalfUp (d : Double) : Double := if d.isFinite then nearest d.neg ⌊d.value + 1 / 2⌋ else d

theorem unitExp_eq : unitExp = 1074 := by
  unfold unitExp
  rfl

theorem finiteExp_eq : finiteExp = 1023 := by
  unfold finiteExp
  rfl

/-! ## Signs and magnitudes -/

theorem mag_ofMag (neg : Bool) {n : Nat} (h : n ≤ infMag) : (ofMag neg n).mag = n := by
  unfold ofMag mag
  unfold infMag at h
  rw [BitVec.toNat_ofNat]
  cases neg <;> simp <;> omega

theorem neg_ofMag (neg : Bool) {n : Nat} (h : n ≤ infMag) : (ofMag neg n).neg = neg := by
  unfold ofMag Double.neg
  unfold infMag at h
  rw [BitVec.toNat_ofNat]
  cases neg <;> simp <;> omega

/-- The units of a magnitude: the exponent counts the shifts of the fraction with its leading bit. -/
theorem units_eq {d : Double} {e m : Nat} (hmag : d.mag = e * 2 ^ 52 + m) (hm : m ≤ 2 ^ 53)
    (hlead : 0 < e → 2 ^ 52 ≤ m) : d.units = m * 2 ^ e := by
  unfold units mantissa
  dsimp only
  rw [hmag]
  by_cases hlow : m < 2 ^ 52
  · obtain rfl : e = 0 := by omega
    rw [if_pos (by omega)]
    simp only
    congr 1
    omega
  · by_cases hcarry : m = 2 ^ 53
    · subst hcarry
      rw [if_neg (by omega)]
      simp only
      rw [show (e * 2 ^ 52 + 2 ^ 53) % 2 ^ 52 + 2 ^ 52 = 2 ^ 52 by omega,
        show (e * 2 ^ 52 + 2 ^ 53) / 2 ^ 52 - 1 = e + 1 by omega, Nat.pow_succ 2 e, ← Nat.mul_assoc]
      omega
    · rw [if_neg (by omega)]
      simp only
      congr 1
      · omega
      · congr 1
        omega

theorem value_nonpos {d : Double} (h : d.neg = true) : d.value ≤ 0 := by
  unfold value
  rw [h, if_pos rfl]
  have : (0 : ℚ) ≤ d.units / 2 ^ unitExp := by positivity
  linarith

theorem value_nonneg {d : Double} (h : d.neg = false) : 0 ≤ d.value := by
  unfold value
  rw [h, if_neg Bool.false_ne_true]
  have : (0 : ℚ) ≤ d.units / 2 ^ unitExp := by positivity
  linarith

theorem abs_value (d : Double) : |d.value| = d.units / 2 ^ unitExp := by
  have hnonneg : (0 : ℚ) ≤ d.units / 2 ^ unitExp := by positivity
  unfold value
  split
  · rw [neg_one_mul, abs_neg, abs_of_nonneg hnonneg]
  · rw [one_mul, abs_of_nonneg hnonneg]

/-! ## Rounding to nearest -/

/-- A rounded quotient is off by at most a half. -/
theorem roundHalfEven_near (a : Nat) {b : Nat} (hb : 0 < b) :
    2 * a ≤ 2 * (roundHalfEven a b * b) + b ∧ 2 * (roundHalfEven a b * b) ≤ 2 * a + b := by
  have hdiv := Nat.div_add_mod a b
  have hmod := Nat.mod_lt a hb
  have hup : (a / b + 1) * b = b * (a / b) + b := by rw [Nat.add_mul, Nat.one_mul, Nat.mul_comm]
  have hdown : a / b * b = b * (a / b) := Nat.mul_comm ..
  unfold roundHalfEven
  dsimp only
  split
  · rw [hdown]
    omega
  · split
    · rw [hup]
      omega
    · rcases Nat.mod_two_eq_zero_or_one (a / b) with h | h <;> rw [h]
      · rw [Nat.add_zero, hdown]
        omega
      · rw [hup]
        omega

/-- What the nearest magnitude consists of: an exponent, and the rounded fraction with its leading bit. -/
theorem nearestMag_spec (a : Nat) {b : Nat} (hb : 0 < b) :
    ∃ e m, nearestMag a b = min infMag (e * 2 ^ 52 + m) ∧ m = roundHalfEven (a * 2 ^ unitExp) (b * 2 ^ e) ∧ m ≤ 2 ^ 53 ∧
      a * 2 ^ unitExp < b * 2 ^ (53 + e) ∧ (0 < e → 2 ^ 52 ≤ m ∧ b * 2 ^ (52 + e) ≤ a * 2 ^ unitExp) := by
  have hmag : nearestMag a b = min infMag (((a * 2 ^ unitExp / b).log2 - 52) * 2 ^ 52 +
      roundHalfEven (a * 2 ^ unitExp) (b * 2 ^ ((a * 2 ^ unitExp / b).log2 - 52))) := by
    unfold nearestMag
    rfl
  refine ⟨(a * 2 ^ unitExp / b).log2 - 52, _, hmag, by rfl, ?_⟩
  generalize a * 2 ^ unitExp = x
  have hbe : ∀ e, 0 < b * 2 ^ e := fun e => Nat.mul_pos hb (Nat.two_pow_pos e)
  have hlt : x / b < 2 ^ ((x / b).log2 + 1) := Nat.lt_log2_self
  have hhigh : x < b * 2 ^ (53 + ((x / b).log2 - 52)) := by
    rw [Nat.mul_comm, ← Nat.div_lt_iff_lt_mul hb]
    exact Nat.lt_of_lt_of_le hlt (Nat.pow_le_pow_right (by omega) (by omega))
  refine ⟨?_, hhigh, fun he => ?_⟩
  · refine Nat.le_trans (roundHalfEven_le _ _) (Nat.div_lt_of_lt_mul ?_)
    rw [Nat.mul_assoc, ← Nat.pow_add, Nat.add_comm _ 53]
    exact hhigh
  · have hne : x / b ≠ 0 := fun h0 => by simp [h0] at he
    have hlow : b * 2 ^ (52 + ((x / b).log2 - 52)) ≤ x := by
      rw [Nat.mul_comm, ← Nat.le_div_iff_mul_le hb, show 52 + ((x / b).log2 - 52) = (x / b).log2 by omega]
      exact Nat.log2_self_le hne
    refine ⟨?_, hlow⟩
    have hquot : 2 ^ 52 ≤ x / (b * 2 ^ ((x / b).log2 - 52)) := by
      rw [Nat.le_div_iff_mul_le (hbe _), Nat.mul_left_comm, ← Nat.pow_add]
      exact hlow
    refine Nat.le_trans hquot ?_
    unfold roundHalfEven
    dsimp only
    split
    · exact Nat.le_refl _
    · split <;> omega

theorem abs_eq_div (x : ℚ) : |x| = (x.num.natAbs : ℚ) / x.den := by
  conv => lhs; rw [← Rat.num_div_den x]
  rw [abs_div, abs_of_nonneg (show (0 : ℚ) ≤ x.den from Nat.cast_nonneg _), ← Int.cast_abs, Int.abs_eq_natAbs]
  rfl

theorem mag_nearest (neg : Bool) (x : ℚ) : (nearest neg x).mag = nearestMag x.num.natAbs x.den :=
  mag_ofMag neg (Nat.min_le_left _ _)

theorem neg_nearest (neg : Bool) (x : ℚ) : (nearest neg x).neg = neg := neg_ofMag neg (Nat.min_le_left _ _)

/-- The fraction of a double in the middle of the range. -/
theorem nearest_units (neg : Bool) {x : ℚ} (h : |x| < 2 ^ finiteExp) :
    ∃ e m : Nat, (nearest neg x).isFinite = true ∧ (nearest neg x).units = m * 2 ^ e ∧
      m = roundHalfEven (x.num.natAbs * 2 ^ unitExp) (x.den * 2 ^ e) ∧
      (0 < e → x.den * 2 ^ (52 + e) ≤ x.num.natAbs * 2 ^ unitExp) := by
  obtain ⟨e, m, hmag, hround, hm, -, hlead⟩ := nearestMag_spec x.num.natAbs x.den_pos
  have hden : (0 : ℚ) < x.den := by exact_mod_cast x.den_pos
  have hsmall : x.num.natAbs < x.den * 2 ^ finiteExp := by
    rw [abs_eq_div, div_lt_iff₀ hden] at h
    rw [Nat.mul_comm]
    exact_mod_cast h
  have hexp : e ≤ 2044 := by
    by_contra hlt
    have hlow := (hlead (by omega)).2
    have hhigh : x.num.natAbs * 2 ^ unitExp < x.den * 2 ^ finiteExp * 2 ^ unitExp :=
      Nat.mul_lt_mul_of_pos_right hsmall (Nat.two_pow_pos _)
    rw [Nat.mul_assoc, ← Nat.pow_add] at hhigh
    have hpow := Nat.lt_of_mul_lt_mul_left (Nat.lt_of_le_of_lt hlow hhigh)
    have hunit := unitExp_eq
    have hbig := finiteExp_eq
    have := (Nat.pow_lt_pow_iff_right (by omega)).1 hpow
    omega
  have hfinite : e * 2 ^ 52 + m < infMag := by
    unfold infMag
    omega
  rw [Nat.min_eq_right (Nat.le_of_lt hfinite)] at hmag
  refine ⟨e, m, ?_, units_eq ((mag_nearest neg x).trans hmag) hm fun he => (hlead he).1, hround, fun he => (hlead he).2⟩
  unfold isFinite
  rw [decide_eq_true_eq, mag_nearest, hmag]
  exact hfinite

/-- **The nearest double** is off by at most half a place: a share of `2^-53`, or half a unit. -/
theorem nearest_near (neg : Bool) {x : ℚ} (h : |x| < 2 ^ finiteExp) :
    |abs (nearest neg x).value - abs x| ≤ 1 / 2 ^ 53 * |x| + 1 / 2 ^ (unitExp + 1) := by
  obtain ⟨e, m, -, hunits, hround, hlead⟩ := nearest_units neg h
  have hden : (0 : ℚ) < x.den := by exact_mod_cast x.den_pos
  have hpos : (0 : ℚ) < 2 ^ unitExp := by positivity
  obtain ⟨hup, hdown⟩ := roundHalfEven_near (x.num.natAbs * 2 ^ unitExp) (Nat.mul_pos x.den_pos (Nat.two_pow_pos e))
  rw [← hround] at hup hdown
  have hup : 2 * ((x.num.natAbs : ℚ) * 2 ^ unitExp) ≤ 2 * (m * (x.den * 2 ^ e)) + x.den * 2 ^ e := by exact_mod_cast hup
  have hdown : 2 * (m * (x.den * 2 ^ e)) ≤ 2 * ((x.num.natAbs : ℚ) * 2 ^ unitExp) + x.den * 2 ^ e := by
    exact_mod_cast hdown
  have habs : |x| * x.den = x.num.natAbs := by rw [abs_eq_div, div_mul_cancel₀ _ hden.ne']
  rw [← habs] at hup hdown
  have hup : 2 * (|x| * 2 ^ unitExp) ≤ 2 * (m * 2 ^ e) + 2 ^ e := le_of_mul_le_mul_right (by linarith) hden
  have hdown : 2 * (m * 2 ^ e) ≤ 2 * (|x| * 2 ^ unitExp) + 2 ^ e := le_of_mul_le_mul_right (by linarith) hden
  have hplace : |abs (nearest neg x).value - abs x| ≤ 2 ^ e / 2 ^ (unitExp + 1) := by
    have hscale : ((m * 2 ^ e : Nat) : ℚ) / 2 ^ unitExp - |x| = (m * 2 ^ e - |x| * 2 ^ unitExp) / 2 ^ unitExp := by
      rw [sub_div, mul_div_cancel_right₀ _ hpos.ne', Nat.cast_mul, Nat.cast_pow, Nat.cast_ofNat]
    rw [abs_value, hunits, hscale, abs_div, abs_of_pos hpos, pow_succ', ← div_div]
    refine div_le_div_of_nonneg_right (abs_le.2 ?_) hpos.le
    constructor <;> linarith
  refine hplace.trans ?_
  rcases Nat.eq_zero_or_pos e with rfl | he
  · rw [pow_zero]
    have hshare : (0 : ℚ) ≤ 1 / 2 ^ 53 * |x| := by positivity
    linarith
  · -- the leading bit is in its place
    have hlead : (x.den : ℚ) * 2 ^ (52 + e) ≤ |x| * x.den * 2 ^ unitExp := by
      rw [habs]
      exact_mod_cast hlead he
    have hlead : (2 : ℚ) ^ 52 * 2 ^ e ≤ |x| * 2 ^ unitExp := by
      rw [← pow_add]
      exact le_of_mul_le_mul_right (by linarith) hden
    have hshare : (2 : ℚ) ^ e / 2 ^ (unitExp + 1) ≤ 1 / 2 ^ 53 * |x| := by
      rw [pow_succ, div_le_iff₀ (by positivity)]
      linarith
    have hunit : (0 : ℚ) ≤ 1 / 2 ^ (unitExp + 1) := by positivity
    linarith

theorem units_nearest_zero (neg : Bool) : (nearest neg 0).units = 0 := by
  obtain ⟨e, m, -, hunits, hround, -⟩ := @nearest_units neg 0 (by rw [abs_zero]; positivity)
  have hzero : roundHalfEven (0 * (1 * 2 ^ e)) (1 * 2 ^ e) = 0 := roundHalfEven_mul 0 (by positivity)
  rw [hunits, hround, Rat.num_zero, Int.natAbs_zero, Rat.den_zero, Nat.zero_mul, ← Nat.zero_mul (1 * 2 ^ e), hzero]
  simp

/-- What `nearest` returns is as large as the number, and has the sign it is given. -/
theorem value_nearest {neg : Bool} {x : ℚ} (hneg : neg = true → x ≤ 0) (hpos : neg = false → 0 ≤ x) :
    (nearest neg x).value = rnd x := by
  by_cases hsign : decide (x < 0) = neg
  · rw [rnd, ofRat, hsign]
  · obtain rfl : x = 0 := by
      cases neg with
      | true => exact le_antisymm (hneg rfl) (by simpa using hsign)
      | false => exact le_antisymm (le_of_lt (by simpa using hsign)) (hpos rfl)
    rw [rnd, ofRat, value, value, units_nearest_zero, units_nearest_zero]
    simp

theorem isFinite_nearest (neg neg' : Bool) (x : ℚ) : (nearest neg x).isFinite = (nearest neg' x).isFinite := by
  unfold isFinite
  rw [mag_nearest, mag_nearest]

/-- Rounding to the nearest double, as long as it is finite. -/
theorem rounds_rnd : Rounds (1 / 2 ^ 53) (1 / 2 ^ (unitExp + 1)) (2 ^ finiteExp) rnd := by
  refine ⟨by positivity, fun x hx => ?_⟩
  have hnear := nearest_near (decide (x < 0)) hx
  rcases lt_or_ge x 0 with hneg | hpos
  · have hvalue : rnd x ≤ 0 := value_nonpos (by rw [ofRat, neg_nearest, decide_eq_true hneg])
    rw [← ofRat, ← rnd, abs_of_nonpos hvalue, abs_of_neg hneg] at hnear
    rw [abs_of_neg hneg, abs_sub_comm]
    rwa [neg_sub_neg] at hnear
  · have hvalue : 0 ≤ rnd x := value_nonneg (by rw [ofRat, neg_nearest, decide_eq_false (not_lt.2 hpos)])
    rw [← ofRat, ← rnd, abs_of_nonneg hvalue, abs_of_nonneg hpos] at hnear
    rwa [abs_of_nonneg hpos]

theorem isFinite_ofRat {x : ℚ} (h : |x| < 2 ^ finiteExp) : (ofRat x).isFinite = true := by
  obtain ⟨-, -, hfinite, -⟩ := nearest_units (decide (x < 0)) h
  exact hfinite

/-- **A double is its own nearest one**: a number with a short enough fraction is not changed. -/
theorem nearest_exact (neg : Bool) {x : ℚ} {m e : Nat} (hm : m < 2 ^ 53) (he : e ≤ 2045)
    (hx : |x| = m * 2 ^ e / 2 ^ unitExp) :
    (nearest neg x).isFinite = true ∧ (nearest neg x).units = m * 2 ^ e := by
  obtain ⟨e', m', hmag, hround, hm', -, hlead⟩ := nearestMag_spec x.num.natAbs x.den_pos
  have hden : (x.den : ℚ) ≠ 0 := by exact_mod_cast x.den_nz
  have hunits : x.num.natAbs * 2 ^ unitExp = m * 2 ^ e * x.den := by
    rw [abs_eq_div, div_eq_div_iff hden (by positivity)] at hx
    exact_mod_cast hx
  rw [hunits] at hround hlead
  have hexp : e' ≤ e := by
    by_contra hlt
    have hlow := (hlead (by omega)).2
    rw [Nat.mul_comm _ x.den] at hlow
    have hlow := Nat.le_of_mul_le_mul_left hlow x.den_pos
    have hhigh : m * 2 ^ e < 2 ^ (53 + e) := by
      rw [Nat.pow_add]
      exact Nat.mul_lt_mul_of_pos_right hm (Nat.two_pow_pos e)
    have := (Nat.pow_lt_pow_iff_right (by omega)).1 (Nat.lt_of_le_of_lt hlow hhigh)
    omega
  have hsplit : m * 2 ^ e = m * 2 ^ (e - e') * 2 ^ e' := by rw [Nat.mul_assoc, ← Nat.pow_add, Nat.sub_add_cancel hexp]
  have hfraction : m' = m * 2 ^ (e - e') := by
    rw [hround, hsplit, show m * 2 ^ (e - e') * 2 ^ e' * x.den = m * 2 ^ (e - e') * (x.den * 2 ^ e') by
      rw [Nat.mul_assoc, Nat.mul_comm (2 ^ e')]]
    exact roundHalfEven_mul _ (Nat.mul_pos x.den_pos (Nat.two_pow_pos e'))
  have hfinite : e' * 2 ^ 52 + m' < infMag := by
    unfold infMag
    by_cases hlast : e' = 2045
    · have : m' = m := by rw [hfraction, show e - e' = 0 by omega, Nat.pow_zero, Nat.mul_one]
      omega
    · omega
  rw [Nat.min_eq_right (Nat.le_of_lt hfinite)] at hmag
  constructor
  · unfold isFinite
    rw [decide_eq_true_eq, mag_nearest, hmag]
    exact hfinite
  · rw [units_eq ((mag_nearest neg x).trans hmag) hm' fun h => (hlead h).1, hfraction, ← hsplit]

/-- The value of a number whose nearest double is as large as itself. -/
theorem value_of_units {neg : Bool} {x : ℚ} (hneg : neg = true → x ≤ 0) (hpos : neg = false → 0 ≤ x)
    (h : ((nearest neg x).units : ℚ) / 2 ^ unitExp = |x|) : (nearest neg x).value = x := by
  rw [value, neg_nearest, h]
  cases neg with
  | true => rw [abs_of_nonpos (hneg rfl), if_pos rfl, neg_one_mul, neg_neg]
  | false => rw [abs_of_nonneg (hpos rfl), if_neg Bool.false_ne_true, one_mul]

/-- Integers below `2^53` are doubles. -/
theorem nearest_int {neg : Bool} {k : ℤ} (hk : k.natAbs < 2 ^ 53) (hneg : neg = true → k ≤ 0)
    (hpos : neg = false → 0 ≤ k) : (nearest neg k).isFinite = true ∧ (nearest neg k).value = k := by
  have hx : |(k : ℚ)| = (k.natAbs : Nat) * 2 ^ unitExp / 2 ^ unitExp := by
    rw [mul_div_cancel_right₀ _ (by positivity), ← Int.cast_abs, Int.abs_eq_natAbs]
    rfl
  have hexp := unitExp_eq
  obtain ⟨hfinite, hunits⟩ := nearest_exact neg hk (by omega) hx
  refine ⟨hfinite, value_of_units (fun h => Int.cast_nonpos.2 (hneg h)) (fun h => Int.cast_nonneg (hpos h)) ?_⟩
  rw [hx, hunits, Nat.cast_mul, Nat.cast_pow, Nat.cast_ofNat]

theorem ofRat_natCast {k : ℕ} (hk : k < 2 ^ 53) : (ofRat k).isFinite = true ∧ (ofRat k).value = k := by
  have hsign : decide ((k : ℚ) < 0) = false := decide_eq_false (not_lt.2 (Nat.cast_nonneg k))
  have hint := @nearest_int (decide ((k : ℚ) < 0)) k (by rw [Int.natAbs_natCast]; exact hk) (by simp [hsign]) (by simp)
  rwa [Int.cast_natCast] at hint

theorem neg_ofRat_natCast (k : ℕ) : (ofRat k).neg = false := by
  rw [ofRat, neg_nearest]
  exact decide_eq_false (not_lt.2 (Nat.cast_nonneg k))

/-- The same of a numeral. -/
theorem ofRat_ofNat (k : ℕ) [k.AtLeastTwo] (hk : k < 2 ^ 53) :
    (ofRat (OfNat.ofNat k)).isFinite = true ∧ (ofRat (OfNat.ofNat k)).value = OfNat.ofNat k := by
  have h := ofRat_natCast hk
  rwa [← @Nat.cast_ofNat ℚ k]

/-- The digits of a finite double. -/
theorem exists_units {d : Double} (h : d.isFinite = true) : ∃ m e, m < 2 ^ 53 ∧ e ≤ 2045 ∧ d.units = m * 2 ^ e := by
  unfold isFinite infMag at h
  rw [decide_eq_true_eq] at h
  refine ⟨d.mantissa.1, d.mantissa.2, ?_, ?_, rfl⟩ <;>
  · unfold mantissa
    dsimp only
    split <;> simp only <;> omega

/-- A finite double is its own nearest one. -/
theorem nearest_value {d : Double} (h : d.isFinite = true) :
    (nearest d.neg d.value).isFinite = true ∧ (nearest d.neg d.value).value = d.value := by
  obtain ⟨m, e, hm, he, hunits⟩ := exists_units h
  have hx : |d.value| = m * 2 ^ e / 2 ^ unitExp := by
    rw [abs_value, hunits, Nat.cast_mul, Nat.cast_pow, Nat.cast_ofNat]
  obtain ⟨hfinite, hsame⟩ := nearest_exact d.neg hm he hx
  refine ⟨hfinite, value_of_units value_nonpos value_nonneg ?_⟩
  rw [hx, hsame, Nat.cast_mul, Nat.cast_pow, Nat.cast_ofNat]

/-! ## Operations -/

theorem finite_iff {d : Double} : d.isFinite = true ↔ d.isNaN = false ∧ d.isInf = false := by
  unfold isFinite isNaN isInf
  rw [decide_eq_true_eq, decide_eq_false_iff_not, beq_eq_false_iff_ne]
  omega

variable {a b d : Double}

theorem add_finite (ha : a.isFinite = true) (hb : b.isFinite = true) :
    (a.add b).isFinite = (ofRat (a.value + b.value)).isFinite ∧
      (a.add b).value = rnd (a.value + b.value) := by
  have hadd : a.add b = nearest (if a.value + b.value = 0 then a.neg && b.neg else decide (a.value + b.value < 0))
      (a.value + b.value) := by
    rw [finite_iff] at ha hb
    simp [add, ha, hb]
  rw [hadd]
  refine ⟨isFinite_nearest _ _ _, value_nearest (fun h => ?_) fun h => ?_⟩
  · split at h
    · exact le_of_eq (by assumption)
    · exact le_of_lt (of_decide_eq_true h)
  · split at h
    · exact ge_of_eq (by assumption)
    · exact not_lt.1 (of_decide_eq_false h)

/-- The sign of a product. -/
theorem mul_sign {x y : ℚ} {s t : Bool} (hs : s = true → x ≤ 0) (hs' : s = false → 0 ≤ x) (ht : t = true → y ≤ 0)
    (ht' : t = false → 0 ≤ y) : ((s != t) = true → x * y ≤ 0) ∧ ((s != t) = false → 0 ≤ x * y) := by
  cases s <;> cases t <;> simp only [bne_self_eq_false, Bool.true_bne, Bool.false_bne, Bool.not_false,
    Bool.false_eq_true, false_imp_iff, true_imp_iff, and_true, true_and, reduceCtorEq] at *
  · exact mul_nonneg hs' ht'
  · exact mul_nonpos_of_nonneg_of_nonpos hs' ht
  · exact mul_nonpos_of_nonpos_of_nonneg hs ht'
  · exact mul_nonneg_of_nonpos_of_nonpos hs ht

theorem mul_finite (ha : a.isFinite = true) (hb : b.isFinite = true) :
    (a.mul b).isFinite = (ofRat (a.value * b.value)).isFinite ∧
      (a.mul b).value = rnd (a.value * b.value) := by
  have hmul : a.mul b = nearest (a.neg != b.neg) (a.value * b.value) := by
    rw [finite_iff] at ha hb
    simp [mul, ha, hb]
  have hsign := @mul_sign a.value b.value a.neg b.neg value_nonpos value_nonneg value_nonpos value_nonneg
  rw [hmul]
  exact ⟨isFinite_nearest _ _ _, value_nearest hsign.1 hsign.2⟩

theorem div_finite (ha : a.isFinite = true) (hb : b.isFinite = true) (hne : b.value ≠ 0) :
    (a.div b).isFinite = (ofRat (a.value / b.value)).isFinite ∧
      (a.div b).value = rnd (a.value / b.value) := by
  have hmag : b.mag ≠ 0 := by
    intro h
    refine hne ?_
    unfold value units mantissa
    simp [h]
  have hdiv : a.div b = nearest (a.neg != b.neg) (a.value / b.value) := by
    rw [finite_iff] at ha hb
    simp [div, ha, hb, hmag]
  have hsign := @mul_sign a.value b.value⁻¹ a.neg b.neg value_nonpos value_nonneg
    (fun h => inv_nonpos.2 (value_nonpos h)) fun h => inv_nonneg.2 (value_nonneg h)
  rw [hdiv, div_eq_mul_inv]
  exact ⟨isFinite_nearest _ _ _, value_nearest hsign.1 hsign.2⟩

/-- Rounding to an integer is exact. -/
theorem roundHalfUp_finite (h : d.isFinite = true) :
    d.roundHalfUp.isFinite = true ∧ d.roundHalfUp.value = ⌊d.value + 1 / 2⌋ := by
  have hround : d.roundHalfUp = nearest d.neg ⌊d.value + 1 / 2⌋ := if_pos h
  obtain ⟨m, e, hm, he, hunits⟩ := exists_units h
  have habs : |d.value| = m * 2 ^ e / 2 ^ unitExp := by
    rw [abs_value, hunits, Nat.cast_mul, Nat.cast_pow, Nat.cast_ofNat]
  rw [hround]
  by_cases hlarge : unitExp ≤ e
  · -- the double is an integer
    have hint : ∃ k : ℤ, d.value = k := by
      have hnat : |d.value| = ((m * 2 ^ (e - unitExp) : Nat) : ℚ) := by
        rw [habs, div_eq_iff (by positivity)]
        push_cast
        rw [mul_assoc, ← pow_add, Nat.sub_add_cancel hlarge]
      rcases abs_choice d.value with hc | hc <;> rw [hc] at hnat
      · exact ⟨(m * 2 ^ (e - unitExp) : Nat), by rw [hnat]; rfl⟩
      · exact ⟨-(m * 2 ^ (e - unitExp) : Nat), by rw [Int.cast_neg, ← neg_eq_iff_eq_neg, hnat]; rfl⟩
    obtain ⟨k, hk⟩ := hint
    have hfloor : ((⌊d.value + 1 / 2⌋ : ℤ) : ℚ) = d.value := by
      rw [hk, Int.cast_inj, Int.floor_eq_iff]
      constructor <;> linarith
    rw [hfloor]
    exact nearest_value h
  · have hsmall : |d.value| < 2 ^ 52 := by
      have hhalf : (2 : ℚ) ^ e * 2 ≤ 2 ^ unitExp := by
        rw [← pow_succ]
        exact pow_le_pow_right₀ (by norm_num) (by omega)
      have hm : (m : ℚ) < 2 ^ 53 := by exact_mod_cast hm
      rw [habs, div_lt_iff₀ (by positivity)]
      have hpos : (0 : ℚ) < 2 ^ e := by positivity
      calc (m : ℚ) * 2 ^ e < 2 ^ 53 * 2 ^ e := mul_lt_mul_of_pos_right hm hpos
        _ = 2 ^ 52 * (2 ^ e * 2) := by ring
        _ ≤ 2 ^ 52 * 2 ^ unitExp := mul_le_mul_of_nonneg_left hhalf (by positivity)
    obtain ⟨hlow, hhigh⟩ := abs_lt.1 hsmall
    have hfloor := Int.floor_le (d.value + 1 / 2)
    have hceil := Int.lt_floor_add_one (d.value + 1 / 2)
    refine nearest_int ?_ (fun hneg => ?_) fun hpos => ?_
    · have hlow : -2 ^ 52 ≤ ⌊d.value + 1 / 2⌋ := Int.le_floor.2 (by push_cast; linarith)
      have hhigh : ⌊d.value + 1 / 2⌋ < 2 ^ 52 + 1 := Int.floor_lt.2 (by push_cast; linarith)
      omega
    · have := value_nonpos hneg
      exact Int.lt_add_one_iff.1 (Int.floor_lt.2 (by push_cast; linarith))
    · have := value_nonneg hpos
      exact Int.floor_nonneg.2 (by linarith)

theorem roundHalfUp_of_not_finite (h : d.isFinite = false) : d.roundHalfUp = d := by
  rw [roundHalfUp, h, if_neg Bool.false_ne_true]

/-! ## Infinities and NaN -/

theorem isNaN_nan : nan.isNaN = true := by decide

theorem not_isNaN_of_isInf (h : d.isInf = true) : d.isNaN = false := by
  unfold isInf at h
  unfold isNaN
  rw [beq_iff_eq] at h
  exact decide_eq_false (by omega)

theorem isInf_ofMag (neg : Bool) : (ofMag neg infMag).isInf = true ∧ (ofMag neg infMag).neg = neg :=
  ⟨beq_iff_eq.2 (mag_ofMag neg (Nat.le_refl _)), neg_ofMag neg (Nat.le_refl _)⟩

theorem isNaN_add (h : a.isNaN = true ∨ b.isNaN = true) : (a.add b).isNaN = true := by
  rw [add, if_pos (Bool.or_eq_true_iff.2 h)]
  exact isNaN_nan

/-- An infinite sum stays infinite until it meets the other infinity. -/
theorem add_isInf_left (ha : a.isInf = true) : (a.add b).isNaN = true ∨ a.add b = a := by
  unfold add
  split
  · exact .inl isNaN_nan
  · split
    · exact .inl isNaN_nan
    · exact .inr rfl

theorem add_isInf_right (hb : b.isInf = true) :
    (a.add b).isNaN = true ∨ (a.add b).isInf = true ∧ (a.add b).neg = b.neg := by
  unfold add
  split
  · exact .inl isNaN_nan
  · split
    · rename_i ha
      split
      · exact .inl isNaN_nan
      · rename_i hsign
        rw [hb, Bool.true_and, bne_iff_ne, ne_eq, not_not] at hsign
        exact .inr ⟨ha, hsign⟩
    · exact .inr ⟨hb, rfl⟩

/-- A quotient of something infinite. -/
theorem div_isInf_left (ha : a.isInf = true) :
    (a.div b).isNaN = true ∨ (a.div b).isInf = true ∧ (a.div b).neg = (a.neg != b.neg) := by
  unfold div
  split
  · exact .inl isNaN_nan
  · split
    · exact .inl isNaN_nan
    · exact .inr (isInf_ofMag _)

theorem isNaN_div (h : a.isNaN = true) : (a.div b).isNaN = true := by
  rw [div, h, Bool.true_or, if_pos rfl]
  exact isNaN_nan

theorem mul_isInf_left (ha : a.isInf = true) :
    (a.mul b).isNaN = true ∨ (a.mul b).isInf = true ∧ (a.mul b).neg = (a.neg != b.neg) := by
  unfold mul
  split
  · exact .inl isNaN_nan
  · rw [ha, Bool.true_or, if_pos rfl]
    split
    · exact .inl isNaN_nan
    · exact .inr (isInf_ofMag _)

theorem isNaN_mul (h : a.isNaN = true) : (a.mul b).isNaN = true := by
  rw [mul, h, Bool.true_or, if_pos rfl]
  exact isNaN_nan

theorem not_isFinite_iff : d.isFinite = false ↔ d.isNaN = true ∨ d.isInf = true := by
  rw [Bool.eq_false_iff, ne_eq, finite_iff, not_and_or, Bool.not_eq_false, Bool.not_eq_false]

/-- A result that overflows is an infinity. -/
theorem isInf_nearest {neg : Bool} {x : ℚ} (h : (ofRat x).isFinite = false) : (nearest neg x).isInf = true := by
  have hmag : nearestMag x.num.natAbs x.den ≤ infMag := Nat.min_le_left _ _
  rw [ofRat, isFinite_nearest _ neg, isFinite, decide_eq_false_iff_not, mag_nearest] at h
  rw [isInf, beq_iff_eq, mag_nearest]
  omega

/-- A sum that has left the range does not come back. -/
theorem add_not_finite (ha : a.isFinite = false) : (a.add b).isFinite = false := by
  rw [not_isFinite_iff] at ha ⊢
  rcases ha with ha | ha
  · exact .inl (isNaN_add (.inl ha))
  · rcases @add_isInf_left a b ha with hnan | hsame
    · exact .inl hnan
    · rw [hsame]
      exact .inr ha

theorem div_not_finite (ha : a.isFinite = false) : (a.div b).isFinite = false := by
  rw [not_isFinite_iff] at ha ⊢
  rcases ha with ha | ha
  · exact .inl (isNaN_div ha)
  · exact (div_isInf_left ha).imp_right And.left

theorem mul_not_finite (ha : a.isFinite = false) : (a.mul b).isFinite = false := by
  rw [not_isFinite_iff] at ha ⊢
  rcases ha with ha | ha
  · exact .inl (isNaN_mul ha)
  · exact (mul_isInf_left ha).imp_right And.left

/-! ## Values of results -/

theorem value?_finite (h : d.isFinite = true) : d.value? = some d.value := if_pos h

theorem value?_not_finite (h : d.isFinite = false) : d.value? = none := by
  rw [value?, h, if_neg Bool.false_ne_true]

/-- The value of a result that is rounded. -/
theorem value?_eq {x : ℚ} (h : d.isFinite = (ofRat x).isFinite ∧ d.value = rnd x) : d.value? = rounded? x := by
  rw [value?, rounded?, h.1, h.2]

theorem value?_add {b : Double} (ha : a.isFinite = true) (hb : b.isFinite = true) :
    (a.add b).value? = rounded? (a.value + b.value) := value?_eq (add_finite ha hb)

theorem value?_mul (hb : b.isFinite = true) : (a.mul b).value? = a.value?.bind fun x => rounded? (x * b.value) := by
  cases ha : a.isFinite with
  | true =>
    rw [value?_finite ha, Option.bind_some]
    exact value?_eq (mul_finite ha hb)
  | false => rw [value?_not_finite ha, value?_not_finite (mul_not_finite ha), Option.bind_none]

theorem value_ne_zero (h : d.mag ≠ 0) : d.value ≠ 0 := by
  have hunits : d.units ≠ 0 := by
    unfold units mantissa
    dsimp only
    split
    · rw [pow_zero, Nat.mul_one]
      omega
    · exact Nat.mul_ne_zero (by omega) (Nat.two_pow_pos _).ne'
  have hcast : (d.units : ℚ) ≠ 0 := by exact_mod_cast hunits
  have habs : |d.value| ≠ 0 := by
    rw [abs_value]
    exact div_ne_zero hcast (by positivity)
  exact abs_ne_zero.1 habs

/-- A natural number other than zero does not become zero. -/
theorem mag_ofRat_natCast {n : ℕ} (hn : n ≠ 0) : (ofRat n).mag ≠ 0 := by
  rw [ofRat, mag_nearest, Rat.num_natCast, Rat.den_natCast, Int.natAbs_natCast]
  obtain ⟨e, m, hmag, -, -, hhigh, hlead⟩ := nearestMag_spec n one_pos
  rw [Nat.one_mul] at hhigh
  have hpos : 0 < e := by
    rw [Nat.pos_iff_ne_zero]
    rintro rfl
    have hpow : 2 ^ unitExp ≤ n * 2 ^ unitExp := Nat.le_mul_of_pos_left _ (Nat.pos_of_ne_zero hn)
    have hlt := (Nat.pow_lt_pow_iff_right (Nat.lt_succ_self 1)).1 (Nat.lt_of_le_of_lt hpow hhigh)
    rw [unitExp_eq] at hlt
    exact absurd hlt (by decide)
  have hm : 0 < m := Nat.lt_of_lt_of_le (Nat.two_pow_pos 52) (hlead hpos).1
  have hinf : 0 < infMag := by decide
  rw [hmag]
  exact (Nat.lt_min.2 ⟨hinf, Nat.add_pos_right _ hm⟩).ne'

/-- A quotient by a natural number; one that is too large for a double counts as infinite. -/
theorem value?_div_natCast {n : ℕ} (hn : n ≠ 0) : (a.div (ofRat n)).value? =
    a.value?.bind fun x => if (ofRat n).isFinite then rounded? (x / rnd n) else some 0 := by
  cases ha : a.isFinite with
  | false =>
    rw [value?_not_finite ha, value?_not_finite (div_not_finite ha), Option.bind_none]
  | true =>
    rw [value?_finite ha, Option.bind_some]
    split
    · rename_i hfinite
      exact value?_eq (div_finite ha hfinite (value_ne_zero (mag_ofRat_natCast hn)))
    · rename_i hlarge
      have hinf : (ofRat n).isInf = true := isInf_nearest (by simpa using hlarge)
      have hdiv : a.div (ofRat n) = ofMag (a.neg != (ofRat n).neg) 0 := by
        rw [finite_iff] at ha
        simp [div, ha, hinf, not_isNaN_of_isInf hinf]
      have hzero : (ofMag (a.neg != (ofRat n).neg) 0).mag = 0 := mag_ofMag _ (Nat.zero_le _)
      rw [hdiv, value?_finite (decide_eq_true (hzero.trans_lt (by decide)))]
      simp [value, units, mantissa, hzero]

/-! ## Signs -/

/-- A double above zero. -/
theorem zero_lt_of_value (hd : d.isFinite = true) (h : 0 < d.value) :
    zero.lt d = true ∧ d.lt zero = false := by
  have hneg : d.neg = false := by
    by_contra hneg
    have := value_nonpos (Bool.eq_true_of_not_eq_false hneg)
    linarith
  have hmag : d.mag ≠ 0 := fun hmag => by
    have hzero : d.value = 0 := by simp [value, units, mantissa, hmag]
    linarith
  have hkey : d.key = d.mag := by rw [key, hneg, if_neg Bool.false_ne_true]
  have hzero : zero.key = 0 := by decide
  have hnan : zero.isNaN = false := by decide
  rw [lt, lt, hkey, hzero, hnan, (finite_iff.1 hd).1]
  simp
  omega

/-! ## Sums -/

theorem finite_add_inf (ha : a.isFinite = true) (hb : b.isInf = true) : a.add b = b := by
  rw [finite_iff] at ha
  simp [add, ha, hb, not_isNaN_of_isInf hb]

/-- An infinity stays as it is, as long as nothing is NaN or the other infinity. -/
theorem inf_add (ha : a.isInf = true) (hb : b.isNaN = false) (hsame : b.isInf = true → b.neg = a.neg) :
    a.add b = a := by
  unfold add
  rw [not_isNaN_of_isInf ha, hb, if_neg (by decide), if_pos ha, if_neg]
  intro h
  rw [Bool.and_eq_true, bne_iff_ne] at h
  exact h.2 (hsame h.1).symm

theorem inf_add_other (ha : a.isInf = true) (hb : b.isInf = true) (hother : a.neg ≠ b.neg) :
    (a.add b).isNaN = true := by
  unfold add
  rw [not_isNaN_of_isInf ha, not_isNaN_of_isInf hb, if_neg (by decide), if_pos ha,
    if_pos (by simpa [hb] using hother)]
  exact isNaN_nan

/-- The sum of numbers, with each partial sum rounded; none if one overflows. -/
def roundedSum (sum : ℚ) (values : List ℚ) : Option ℚ := values.foldlM (fun sum v => rounded? (sum + v)) sum

/-- The partial sum that overflows, in front of its rounding. -/
def overflow : ℚ → List ℚ → Option ℚ
  | _, [] => none
  | sum, v :: values =>
    (rounded? (sum + v)).elim (some (sum + v)) fun next => overflow next values

variable {samples : List Double}

theorem sum_not_finite (hd : d.isFinite = false) : (samples.foldl add d).isFinite = false := by
  induction samples generalizing d with
  | nil => exact hd
  | cons v samples ih => exact ih (add_not_finite hd)

theorem sum_nan (hd : d.isNaN = true) : (samples.foldl add d).isNaN = true := by
  induction samples generalizing d with
  | nil => exact hd
  | cons v samples ih => exact ih (isNaN_add (.inl hd))

theorem sum_inf (hd : d.isInf = true)
    (hsame : ∀ v ∈ samples, v.isNaN = false ∧ (v.isInf = true → v.neg = d.neg)) : samples.foldl add d = d := by
  induction samples with
  | nil => rfl
  | cons v samples ih =>
    rw [List.forall_mem_cons] at hsame
    rw [List.foldl_cons, inf_add hd hsame.1.1 hsame.1.2]
    exact ih hsame.2

/-- The value of a sum of finite doubles. -/
theorem value?_sum (hd : d.isFinite = true) (hall : ∀ v ∈ samples, v.isFinite = true) :
    (samples.foldl add d).value? = roundedSum d.value (samples.map value) := by
  induction samples generalizing d with
  | nil => exact value?_finite hd
  | cons v samples ih =>
    rw [List.forall_mem_cons] at hall
    rw [List.foldl_cons, List.map_cons, roundedSum, List.foldlM_cons, ← value?_add hd hall.1]
    cases hnext : (d.add v).isFinite with
    | true =>
      rw [value?_finite hnext]
      exact ih hnext hall.2
    | false =>
      rw [value?_not_finite hnext]
      exact value?_not_finite (sum_not_finite hnext)

/-- A sum of finite doubles is infinite exactly if a partial sum overflows, and with its sign. -/
theorem sum_overflow (hd : d.isFinite = true) (hall : ∀ v ∈ samples, v.isFinite = true) :
    (samples.foldl add d).isFinite = true ∧ overflow d.value (samples.map value) = none ∨
      ∃ x : ℚ, overflow d.value (samples.map value) = some x ∧ (samples.foldl add d).isInf = true ∧
        (samples.foldl add d).neg = decide (x < 0) := by
  induction samples generalizing d with
  | nil =>
    rw [List.foldl_nil, List.map_nil, overflow]
    exact .inl ⟨hd, rfl⟩
  | cons v samples ih =>
    rw [List.forall_mem_cons] at hall
    rw [List.foldl_cons, List.map_cons, overflow, ← value?_add hd hall.1]
    cases hnext : (d.add v).isFinite with
    | true =>
      rw [value?_finite hnext]
      exact ih hnext hall.2
    | false =>
      rw [value?_not_finite hnext]
      have hround : (ofRat (d.value + v.value)).isFinite = false := (add_finite hd hall.1).1.symm.trans hnext
      have hne : d.value + v.value ≠ 0 := fun hzero => by
        rw [hzero, isFinite_ofRat (by rw [abs_zero]; positivity)] at hround
        cases hround
      have hadd : d.add v = nearest (decide (d.value + v.value < 0)) (d.value + v.value) := by
        have hv := hall.1
        rw [finite_iff] at hd hv
        simp [add, hd, hv, hne]
      have hinf : (d.add v).isInf = true := by
        rw [hadd]
        exact isInf_nearest hround
      have hsum : samples.foldl add (d.add v) = d.add v := by
        refine sum_inf hinf fun w hw => ?_
        obtain ⟨hnan, hinf'⟩ := finite_iff.1 (hall.2 w hw)
        exact ⟨hnan, fun h => by rw [hinf'] at h; cases h⟩
      rw [hsum]
      have hsign : (d.add v).neg = decide (d.value + v.value < 0) := by rw [hadd, neg_nearest]
      exact .inr ⟨d.value + v.value, rfl, hinf, hsign⟩

/-- The value of a finite double is within the range. -/
theorem abs_value_lt (h : d.isFinite = true) : |d.value| < 2 ^ (finiteExp + 1) := by
  obtain ⟨m, e, hm, he, hunits⟩ := exists_units h
  have hlt : d.units < 2 ^ (finiteExp + 1) * 2 ^ unitExp := by
    have hexp := unitExp_eq
    have hbig := finiteExp_eq
    rw [hunits, ← Nat.pow_add]
    calc m * 2 ^ e < 2 ^ 53 * 2 ^ e := Nat.mul_lt_mul_of_pos_right hm (Nat.two_pow_pos e)
      _ = 2 ^ (53 + e) := (Nat.pow_add ..).symm
      _ ≤ 2 ^ (finiteExp + 1 + unitExp) := Nat.pow_le_pow_right (by omega) (by omega)
  rw [abs_value, div_lt_iff₀ (by positivity)]
  exact_mod_cast hlt

/-! ## Errors of computed values -/

theorem lt_finite {x : ℚ} (h : x ≤ 2 ^ 255) : x < 2 ^ finiteExp := by
  refine h.trans_lt (pow_lt_pow_right₀ (by norm_num) ?_)
  have := finiteExp_eq
  omega

/-- A rounded operation on something near a number of bounded size. -/
theorem rounded_near {x' x e m : ℚ} (hx : Near x' x e) (hm : |x| ≤ m) (hbig : m + e ≤ 2 ^ 255) :
    (ofRat x').isFinite = true ∧ Near (rnd x') x (e + (1 / 2 ^ 53 * (m + e) + 1 / 2 ^ (unitExp + 1))) := by
  have hsize : m + e < 2 ^ finiteExp := lt_finite hbig
  exact ⟨isFinite_ofRat ((hx.abs_le hm).trans_lt hsize), hx.rounded rounds_rnd hm hsize⟩

/-- A finite double that is off by at most `e` from a number of size at most `m`. -/
structure Close (d : Double) (x m e : ℚ) : Prop where
  finite : d.isFinite = true
  near : Near d.value x e
  size : |x| ≤ m

/-- What a rounding adds to the error of a value of size `m`. -/
def slack (m : ℚ) : ℚ := m / 2 ^ 53 + 1 / 2 ^ 100

theorem unit_le : (1 : ℚ) / 2 ^ (unitExp + 1) ≤ 1 / 2 ^ 100 := by
  refine one_div_le_one_div_of_le (by positivity) (pow_le_pow_right₀ (by norm_num) ?_)
  have := unitExp_eq
  omega

variable {x y m n e f c : ℚ}

/-- The rounding behind an operation. -/
theorem close_of_rounded (hfinite : d.isFinite = (ofRat y).isFinite) (hvalue : d.value = rnd y) (hx : Near y x e)
    (hm : |x| ≤ m) (hbig : m + e ≤ 2 ^ 255) : Close d x m (e + slack (m + e)) := by
  obtain ⟨hfin, hnear⟩ := rounded_near hx hm hbig
  refine ⟨hfinite.trans hfin, ?_, hm⟩
  rw [hvalue]
  refine hnear.mono ?_
  have hunit := unit_le
  rw [slack, one_div_mul_eq_div]
  linarith

theorem Close.mono (h : Close d x m e) (hle : e ≤ f) : Close d x m f := ⟨h.finite, h.near.mono hle, h.size⟩

/-- A natural number below `2^53` is converted exactly. -/
theorem close_natCast {n : ℕ} (hn : n < 2 ^ 53) (hm : (n : ℚ) ≤ m) : Close (ofRat n) n m 0 := by
  obtain ⟨hfinite, hvalue⟩ := ofRat_natCast hn
  refine ⟨hfinite, ?_, ?_⟩
  · rw [hvalue]
    exact Near.refl _
  · rwa [abs_of_nonneg (Nat.cast_nonneg n)]

theorem Close.add (ha : Close a x m e) (hb : Close b y n f) (hbig : m + n + (e + f) ≤ 2 ^ 255) :
    Close (a.add b) (x + y) (m + n) (e + f + slack (m + n + (e + f))) := by
  obtain ⟨hfinite, hvalue⟩ := add_finite ha.finite hb.finite
  exact close_of_rounded hfinite hvalue (ha.near.add hb.near) ((abs_add_le x y).trans (add_le_add ha.size hb.size)) hbig

/-- The sign of a negated double. -/
theorem neg_negate_eq (d : Double) : d.negate.neg = !d.neg := by
  unfold Double.neg negate
  rw [BitVec.toNat_ofNat]
  have hlt := d.bits.isLt
  by_cases h : 2 ^ 63 ≤ d.bits.toNat
  · rw [decide_eq_true h, Bool.not_true, decide_eq_false_iff_not]
    omega
  · rw [decide_eq_false h, Bool.not_false, decide_eq_true_eq]
    omega

theorem value_negate (d : Double) : d.negate.value = -d.value := by
  unfold value units
  rw [mantissa_negate, neg_negate_eq]
  cases d.neg <;> simp

theorem Close.negate (h : Close d x m e) : Close d.negate (-x) m e := by
  refine ⟨?_, ?_, by rw [abs_neg]; exact h.size⟩
  · have hfinite := h.finite
    unfold isFinite at hfinite ⊢
    rwa [mag_negate]
  · have hnear := h.near
    unfold Near at hnear ⊢
    rwa [value_negate, neg_sub_neg, abs_sub_comm]

theorem Close.sub (ha : Close a x m e) (hb : Close b y n f) (hbig : m + n + (e + f) ≤ 2 ^ 255) :
    Close (a.sub b) (x - y) (m + n) (e + f + slack (m + n + (e + f))) := by
  rw [sub_eq_add_neg]
  exact ha.add hb.negate hbig

/-- A product with a number that is a double. -/
theorem Close.mul_exact (ha : Close a x m e) (hb : b.isFinite = true ∧ b.value = c) (hc : 0 ≤ c)
    (hbig : m * c + e * c ≤ 2 ^ 255) :
    Close (a.mul b) (x * c) (m * c) (e * c + slack (m * c + e * c)) := by
  obtain ⟨hfinite, hvalue⟩ := mul_finite ha.finite hb.1
  have hnear := ha.near.mul_right c
  rw [hb.2] at hfinite hvalue
  rw [abs_of_nonneg hc] at hnear
  refine close_of_rounded hfinite hvalue hnear ?_ hbig
  rw [abs_mul, abs_of_nonneg hc]
  exact mul_le_mul_of_nonneg_right ha.size hc

/-- A quotient by a number that is a double. -/
theorem Close.div_exact (ha : Close a x m e) (hb : b.isFinite = true ∧ b.value = c) (hc : 0 < c)
    (hbig : m / c + e / c ≤ 2 ^ 255) :
    Close (a.div b) (x / c) (m / c) (e / c + slack (m / c + e / c)) := by
  obtain ⟨hfinite, hvalue⟩ := div_finite ha.finite hb.1 (by rw [hb.2]; exact hc.ne')
  have hnear := ha.near.div_right c
  rw [hb.2] at hfinite hvalue
  rw [abs_of_pos hc] at hnear
  refine close_of_rounded hfinite hvalue hnear ?_ hbig
  rw [abs_div, abs_of_pos hc]
  exact div_le_div_of_nonneg_right ha.size hc.le

end PudimNetMon.Double
