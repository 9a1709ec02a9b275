import Mathlib.Data.List.TakeWhile
import PudimNetMon.Lib.DoubleArith

/-!
# The mean of a bucket (`derive.ts`)

`Math.round((sum / list.length) * 1000) / 1000` in doubles, beside the mean to three decimals, which is exact up to the
double that it is stored in. The errors of the operations can carry the thousandfold mean over a half
(`average_iff`), or out of the range.

- `thousandfold_value`: the operations on finite samples, as roundings of rational numbers;
- `steady_iff`: up to `2^41`, the two are the same exactly if the nearest integers are;
- `steady_of_margin`: they are the same as long as the mean is not too close to a half;
- `average_near`: how far `average` is from the mean.
-/

namespace PudimNetMon.Dashboard

open Double

/-- A value in a row: a text, or a number by its value, so that `0` and `-0` are one. -/
inductive Cell
  | text (s : String)
  | number (v : ℚ)
  | infinite (neg : Bool)
  | nan
  deriving DecidableEq

def Cell.ofDouble (d : Double) : Cell := if d.isNaN then .nan else if d.isInf then .infinite d.neg else .number d.value

/-- `(sum / list.length) * 1000` -/
def thousandfold (list : List Double) : Double :=
  let sum := list.foldl add zero
  (sum.div (ofRat list.length)).mul (ofRat 1000)

/-- What is put into a row. -/
def average (list : List Double) : Double := (thousandfold list).roundHalfUp.div (ofRat 1000)

/-! ## The mean to three decimals -/

section

variable (samples : List Double)

/-- The mean of finite samples. -/
def mean : ℚ := (samples.map value).sum / samples.length

/-- The nearest integer, halves up. -/
def toNearest (x : ℚ) : ℤ := ⌊x + 1 / 2⌋

/-- A number of thousandths, in the nearest double. -/
def thousandths (k : ℤ) : Cell := .number (rnd (k / 1000))

/-- A sample is NaN, or there are samples of both infinities. -/
def Undefined : Prop := (∃ d ∈ samples, d.isNaN = true) ∨
  ∃ d ∈ samples, ∃ d' ∈ samples, d.isInf = true ∧ d'.isInf = true ∧ d.neg ≠ d'.neg

instance : Decidable (Undefined samples) := inferInstanceAs (Decidable (_ ∨ _))

/-- The mean to three decimals. With an infinite sample it is infinite, or NaN. -/
def roundedMean : Cell :=
  if samples.all isFinite then thousandths (toNearest (mean samples * 1000))
  else if Undefined samples then .nan
  else .infinite (samples.any fun d => d.isInf && d.neg)

/-- The thousandfold mean of numbers, with the result of each operation rounded; none if one overflows. A number of
samples that is too large for a double counts as infinite. -/
def roundedThousandfold (values : List ℚ) : Option ℚ :=
  ((roundedSum 0 values).bind fun sum =>
    if (ofRat values.length).isFinite then rounded? (sum / rnd values.length) else some 0).bind fun quotient =>
      rounded? (quotient * 1000)

/-- The roundings neither overflow nor carry the thousandfold mean to another integer; of large integers, to none with
another double as its thousandths. In front of an infinite sample the sum overflows at most to the same infinity. -/
def Steady : Prop :=
  if samples.all isFinite then
    (roundedThousandfold (samples.map value)).map (fun x => thousandths (toNearest x)) =
      some (thousandths (toNearest (mean samples * 1000)))
  else
    Undefined samples ∨ (ofRat samples.length).isFinite = true ∧
      ∀ x ∈ overflow 0 ((samples.takeWhile isFinite).map value), decide (x < 0) = samples.any fun d => d.isInf && d.neg

end

/-! ## Exactly when it is that mean -/

section

variable {samples : List Double}

theorem ofRat_thousand : (ofRat 1000).isFinite = true ∧ (ofRat 1000).value = 1000 ∧ (ofRat 1000).neg = false := by
  obtain ⟨hfinite, hvalue⟩ := ofRat_ofNat 1000 (by norm_num)
  have hsign := neg_ofRat_natCast 1000
  rw [Nat.cast_ofNat] at hsign
  exact ⟨hfinite, hvalue, hsign⟩

theorem Cell.ofDouble_finite {d : Double} (h : d.isFinite = true) : Cell.ofDouble d = .number d.value := by
  obtain ⟨hnan, hinf⟩ := finite_iff.1 h
  rw [Cell.ofDouble, hnan, hinf, if_neg Bool.false_ne_true, if_neg Bool.false_ne_true]

theorem abs_thousandth_lt {d : Double} (h : d.isFinite = true) :
    |((toNearest d.value : ℤ) : ℚ) / 1000| < 2 ^ finiteExp := by
  have hlt := abs_value_lt (roundHalfUp_finite h).1
  rw [(roundHalfUp_finite h).2, pow_succ] at hlt
  have hpos : (0 : ℚ) < 2 ^ finiteExp := by positivity
  rw [toNearest, abs_div, abs_of_pos (show (0 : ℚ) < 1000 by norm_num), div_lt_iff₀ (by norm_num)]
  linarith

theorem value_zero : zero.isFinite = true ∧ zero.value = 0 := by
  refine ⟨by decide, ?_⟩
  simp [value, units, mantissa, mag, zero]

/-- The operations on finite samples. -/
theorem thousandfold_value (hne : samples ≠ []) (hall : ∀ v ∈ samples, v.isFinite = true) :
    (thousandfold samples).value? = roundedThousandfold (samples.map value) := by
  obtain ⟨hzero, hvalue⟩ := value_zero
  obtain ⟨hthousand, hthousandValue, -⟩ := ofRat_thousand
  have hsum := value?_sum hzero hall
  have hlength : samples.length ≠ 0 := fun h => hne (List.length_eq_zero_iff.1 h)
  rw [hvalue] at hsum
  rw [thousandfold, value?_mul hthousand, value?_div_natCast hlength, hsum, hthousandValue, roundedThousandfold,
    List.length_map]

/-- The last two operations on something finite. -/
theorem average_of_finite {list : List Double} (h : (thousandfold list).isFinite = true) :
    Cell.ofDouble (average list) = thousandths (toNearest (thousandfold list).value) := by
  obtain ⟨hfinite, hround⟩ := roundHalfUp_finite h
  obtain ⟨hthousand, hvalue, -⟩ := ofRat_thousand
  obtain ⟨hdiv, hquotient⟩ := div_finite hfinite hthousand (by rw [hvalue]; norm_num)
  rw [hround, hvalue] at hdiv hquotient
  rw [average, Cell.ofDouble_finite (hdiv.trans (isFinite_ofRat (abs_thousandth_lt h))), hquotient]
  rfl

/-- The last two operations on something infinite, or on NaN. -/
theorem average_of_not_finite {list : List Double} (h : (thousandfold list).isFinite = false) :
    Cell.ofDouble (average list) = if (thousandfold list).isNaN then .nan else .infinite (thousandfold list).neg := by
  obtain ⟨hthousand, -, hneg⟩ := ofRat_thousand
  rw [average, roundHalfUp_of_not_finite h]
  cases hnan : (thousandfold list).isNaN with
  | true => rw [Cell.ofDouble, isNaN_div hnan, if_pos rfl, if_pos rfl]
  | false =>
    have hinf : (thousandfold list).isInf = true := by
      by_contra hinf
      rw [finite_iff.2 ⟨hnan, by simpa using hinf⟩] at h
      cases h
    have hdiv : (thousandfold list).div (ofRat 1000) = ofMag ((thousandfold list).neg != (ofRat 1000).neg) infMag := by
      rw [finite_iff] at hthousand
      simp [Double.div, hnan, hinf, hthousand]
    obtain ⟨hsame, hsign⟩ := isInf_ofMag ((thousandfold list).neg != (ofRat 1000).neg)
    rw [hdiv, Cell.ofDouble, not_isNaN_of_isInf hsame, hsame, hsign, hneg, Bool.bne_false]
    rfl

/-- What a sum has of the values that are not finite. -/
structure Follows (seen : List Double) (sum : Double) : Prop where
  nan : ∀ d ∈ seen, d.isNaN = true → sum.isNaN = true
  infinite : ∀ d ∈ seen, d.isInf = true → sum.isNaN = true ∨ sum.isInf = true ∧ sum.neg = d.neg

theorem Follows.add {seen : List Double} {sum : Double} (h : Follows seen sum) (v : Double) :
    Follows (seen ++ [v]) (sum.add v) := by
  constructor
  · intro d hd hnan
    rcases List.mem_append.1 hd with hd | hd
    · exact isNaN_add (.inl (h.nan d hd hnan))
    · rw [List.mem_singleton.1 hd] at hnan
      exact isNaN_add (.inr hnan)
  · intro d hd hinf
    rcases List.mem_append.1 hd with hd | hd
    · rcases h.infinite d hd hinf with hsum | ⟨hsum, hsign⟩
      · exact .inl (isNaN_add (.inl hsum))
      · rcases @add_isInf_left sum v hsum with hnan | hsame
        · exact .inl hnan
        · rw [hsame]
          exact .inr ⟨hsum, hsign⟩
    · rw [List.mem_singleton.1 hd] at hinf ⊢
      exact add_isInf_right hinf

theorem follows_sum (samples : List Double) : Follows samples (samples.foldl Double.add zero) := by
  induction samples using List.reverseRecOn with
  | nil => exact ⟨nofun, nofun⟩
  | append_singleton samples v ih =>
    rw [List.foldl_append]
    exact ih.add v

theorem follows_thousandfold (samples : List Double) : Follows samples (thousandfold samples) := by
  obtain ⟨-, -, hneg⟩ := ofRat_thousand
  have hlength := neg_ofRat_natCast samples.length
  obtain ⟨hnan, hinfinite⟩ := follows_sum samples
  refine ⟨fun d hd h => isNaN_mul (isNaN_div (hnan d hd h)), fun d hd h => ?_⟩
  rcases hinfinite d hd h with hsum | ⟨hsum, hsign⟩
  · exact .inl (isNaN_mul (isNaN_div hsum))
  rcases @div_isInf_left _ (ofRat samples.length) hsum with hquotient | ⟨hquotient, hsign'⟩
  · exact .inl (isNaN_mul hquotient)
  rcases @mul_isInf_left _ (ofRat 1000) hquotient with hproduct | ⟨hproduct, hsign''⟩
  · exact .inl hproduct
  · refine .inr ⟨hproduct, ?_⟩
    show ((Double.div _ _).mul _).neg = _
    rw [hsign'', hsign', hneg, hlength, Bool.bne_false, Bool.bne_false, hsign]

theorem exists_special (h : samples.all isFinite = false) : ∃ d ∈ samples, d.isNaN = true ∨ d.isInf = true := by
  rw [List.all_eq_false] at h
  obtain ⟨d, hd, hnot⟩ := h
  exact ⟨d, hd, not_isFinite_iff.1 (by simpa using hnot)⟩

/-- Without NaN and samples of both infinities, all infinite samples have the sign of any. -/
theorem sameInfinity_of_defined (h : ¬Undefined samples) :
    ∀ d ∈ samples, d.isNaN = false ∧ (d.isInf = true → d.neg = samples.any fun d => d.isInf && d.neg) := by
  unfold Undefined at h
  push Not at h
  obtain ⟨hnan, hsigns⟩ := h
  refine fun d hd => ⟨by simpa using hnan d hd, fun hinf => ?_⟩
  rw [Bool.eq_iff_iff, List.any_eq_true]
  constructor
  · exact fun hneg => ⟨d, hd, by rw [hinf, hneg]; rfl⟩
  · rintro ⟨d', hd', hboth⟩
    rw [Bool.and_eq_true] at hboth
    rw [hsigns d hd d' hd' hinf hboth.1, hboth.2]

/-- Samples that are not all finite. -/
theorem average_of_special (h : samples.all isFinite = false) : Cell.ofDouble (average samples) = roundedMean samples ↔
    ((thousandfold samples).isNaN = true → Undefined samples) := by
  obtain ⟨hnan, hinfinite⟩ := follows_thousandfold samples
  obtain ⟨d, hd, hspecial⟩ := exists_special h
  have hnot : (thousandfold samples).isFinite = false := by
    rw [Bool.eq_false_iff, ne_eq, finite_iff]
    rintro ⟨hno, hno'⟩
    rcases hspecial with hd' | hd'
    · rw [hnan d hd hd'] at hno
      cases hno
    · rcases hinfinite d hd hd' with hd' | ⟨hd', -⟩
      · rw [hd'] at hno
        cases hno
      · rw [hd'] at hno'
        cases hno'
  rw [average_of_not_finite hnot, roundedMean, h, if_neg Bool.false_ne_true]
  by_cases hundefined : Undefined samples
  · have hsum : (thousandfold samples).isNaN = true := by
      rcases hundefined with ⟨d, hd, hd'⟩ | ⟨d, hd, d', hd', hinf, hinf', hsigns⟩
      · exact hnan d hd hd'
      · rcases hinfinite d hd hinf with h | ⟨-, hsign⟩
        · exact h
        rcases hinfinite d' hd' hinf' with h | ⟨-, hsign'⟩
        · exact h
        · exact absurd (hsign.symm.trans hsign') hsigns
    simp [hundefined, hsum]
  · have hinf : d.isInf = true := hspecial.resolve_left fun hd' => hundefined (.inl ⟨d, hd, hd'⟩)
    rw [if_neg hundefined]
    cases hsum : (thousandfold samples).isNaN with
    | true => simp [hundefined]
    | false =>
      have hsign : (thousandfold samples).neg = d.neg := by
        rcases hinfinite d hd hinf with h | ⟨-, h⟩
        · rw [h] at hsum
          cases hsum
        · exact h
      simp [hsign, (sameInfinity_of_defined hundefined d hd).2 hinf]

/-- The quotient of an infinite sum, and its thousandfold, are no numbers only if the number of samples is infinite. -/
theorem isNaN_thousandfold_iff
    (hsum : (samples.foldl Double.add zero).isNaN = true ∨ (samples.foldl Double.add zero).isInf = true) :
    (thousandfold samples).isNaN = false ↔
      (samples.foldl Double.add zero).isNaN = false ∧ (ofRat samples.length).isFinite = true := by
  rcases hsum with hnan | hinf
  · rw [thousandfold, hnan, isNaN_mul (isNaN_div hnan)]
    simp
  rw [not_isNaN_of_isInf hinf, eq_self_iff_true, true_and, thousandfold]
  obtain ⟨hthousand, -⟩ := ofRat_thousand
  cases hcount : (ofRat samples.length).isFinite with
  | false =>
    have hlarge : (ofRat samples.length).isInf = true := isInf_nearest hcount
    have hdiv : ((samples.foldl Double.add zero).div (ofRat samples.length)).isNaN = true := by
      simp [Double.div, not_isNaN_of_isInf hinf, not_isNaN_of_isInf hlarge, hinf, hlarge, isNaN_nan]
    simp [isNaN_mul hdiv]
  | true =>
    rw [finite_iff] at hcount hthousand
    have hdiv : ((samples.foldl Double.add zero).div (ofRat samples.length)).isInf = true := by
      simp [Double.div, not_isNaN_of_isInf hinf, hinf, hcount, isInf_ofMag]
    have hmag : ((samples.foldl Double.add zero).div (ofRat samples.length)).mag ≠ 0 := by
      rw [isInf, beq_iff_eq] at hdiv
      rw [hdiv]
      decide
    have hthousandMag : (ofRat (1000 : ℕ)).mag ≠ 0 := mag_ofRat_natCast (by decide)
    rw [Nat.cast_ofNat] at hthousandMag
    have hmul : (((samples.foldl Double.add zero).div (ofRat samples.length)).mul (ofRat 1000)).isInf = true := by
      simp [Double.mul, not_isNaN_of_isInf hdiv, hdiv, hmag, hthousand, hthousandMag, isInf_ofMag]
    simp [not_isNaN_of_isInf hmul]

/-- A sum with infinite samples of one sign: in front of them it must not have overflowed to the other infinity. -/
theorem isNaN_sum_iff {neg : Bool} (h : samples.all isFinite = false)
    (hsame : ∀ d ∈ samples, d.isNaN = false ∧ (d.isInf = true → d.neg = neg)) :
    (samples.foldl Double.add zero).isNaN = false ↔
      ∀ x ∈ overflow 0 ((samples.takeWhile isFinite).map value), decide (x < 0) = neg := by
  obtain ⟨hzero, hvalue⟩ := value_zero
  obtain ⟨d, back, hback⟩ : ∃ d back, samples.dropWhile isFinite = d :: back := by
    refine List.exists_cons_of_ne_nil fun hnil => ?_
    rw [List.dropWhile_eq_nil_iff, ← List.all_eq_true, h] at hnil
    cases hnil
  have hsplit := @List.takeWhile_append_dropWhile _ isFinite samples
  rw [hback] at hsplit
  have hfront : ∀ v ∈ samples.takeWhile isFinite, v.isFinite = true := fun v hv => List.mem_takeWhile_imp hv
  have hfirst : d.isFinite = false := by
    have hhead := List.head?_dropWhile_not isFinite samples
    rw [hback] at hhead
    simpa using hhead
  have hall : ∀ v ∈ d :: back, v.isNaN = false ∧ (v.isInf = true → v.neg = neg) := fun v hv =>
    hsame v (by rw [← hsplit]; exact List.mem_append_right _ hv)
  rw [List.forall_mem_cons] at hall
  have hinf : d.isInf = true := (not_isFinite_iff.1 hfirst).resolve_left (by simp [hall.1.1])
  have hneg := hall.1.2 hinf
  -- behind the first infinite sample nothing changes
  have hrest : ∀ {sum : Double}, sum.isInf = true → sum.neg = neg → back.foldl Double.add sum = sum :=
    fun hsum hsign => sum_inf hsum fun v hv => ⟨(hall.2 v hv).1, fun hv' => ((hall.2 v hv).2 hv').trans hsign.symm⟩
  have hfold : samples.foldl Double.add zero =
      back.foldl Double.add (((samples.takeWhile isFinite).foldl Double.add zero).add d) := by
    conv_lhs => rw [← hsplit]
    rw [List.foldl_append, List.foldl_cons]
  rw [hfold]
  rcases sum_overflow hzero hfront with ⟨hsum, hnone⟩ | ⟨x, hsome, hsum, hsign⟩
  · rw [hvalue] at hnone
    rw [finite_add_inf hsum hinf, hrest hinf hneg, hnone]
    exact iff_of_true (not_isNaN_of_isInf hinf) nofun
  · rw [hvalue] at hsome
    rw [hsome]
    simp only [Option.mem_some_iff, forall_eq']
    rw [← hsign]
    by_cases hsame' : ((samples.takeWhile isFinite).foldl Double.add zero).neg = neg
    · rw [inf_add hsum hall.1.1 fun _ => hneg.trans hsame'.symm, hrest hsum hsame']
      exact iff_of_true (not_isNaN_of_isInf hsum) hsame'
    · have hnan : (((samples.takeWhile isFinite).foldl Double.add zero).add d).isNaN = true :=
        inf_add_other hsum hinf fun heq => hsame' (heq.trans hneg)
      refine iff_of_false (fun hno => ?_) hsame'
      rw [sum_nan hnan] at hno
      cases hno

/-- **The entry is the mean to three decimals** exactly if the roundings of the operations keep to its thousandth. -/
theorem average_iff (hne : samples ≠ []) : Cell.ofDouble (average samples) = roundedMean samples ↔ Steady samples := by
  unfold Steady
  cases hall : samples.all isFinite with
  | false =>
    rw [if_neg Bool.false_ne_true, average_of_special hall, or_iff_not_imp_left, ← not_imp_not, Bool.not_eq_true]
    refine imp_congr_right fun hdefined => ?_
    have hsame := sameInfinity_of_defined hdefined
    obtain ⟨d, hd, hspecial⟩ := exists_special hall
    have hsum : (samples.foldl Double.add zero).isNaN = true ∨ (samples.foldl Double.add zero).isInf = true := by
      obtain ⟨hnan, hinfinite⟩ := follows_sum samples
      rcases hspecial with hd' | hd'
      · exact .inl (hnan d hd hd')
      · exact (hinfinite d hd hd').imp_right And.left
    rw [isNaN_thousandfold_iff hsum, isNaN_sum_iff hall hsame, and_comm]
  | true =>
    have hvalue := thousandfold_value hne (List.all_eq_true.1 hall)
    rw [roundedMean, hall, if_pos rfl, if_pos rfl, ← hvalue]
    cases hfinite : (thousandfold samples).isFinite with
    | true => rw [average_of_finite hfinite, value?_finite hfinite, Option.map_some, Option.some_inj]
    | false =>
      rw [value?_not_finite hfinite, average_of_not_finite hfinite, Option.map_none]
      refine iff_of_false (fun h => ?_) nofun
      split at h <;> cases h

/-- The double of 19.0735 is below it, and its thousandfold is rounded up to the half. -/
example : Cell.ofDouble (average [ofRat (38147 / 2000)]) = thousandths 19074 ∧
    roundedMean [ofRat (38147 / 2000)] = thousandths 19073 := by
  decide +kernel

end

/-! ## How far it is from the mean -/

section

/-- Finite samples of a bounded size. -/
structure Moderate (M : ℚ) (samples : List Double) : Prop where
  finite : ∀ v ∈ samples, v.isFinite = true ∧ |v.value| ≤ M
  one_le : 1 ≤ M
  size : M ≤ 2 ^ 200
  count : samples.length ≤ 2 ^ 50

variable {samples : List Double} {M : ℚ}

theorem Moderate.unit_le (h : Moderate M samples) : 1 / 2 ^ (unitExp + 1) ≤ M / 2 ^ 53 := by
  have hunit : (1 : ℚ) / 2 ^ (unitExp + 1) ≤ 1 / 2 ^ 53 := by
    refine one_div_le_one_div_of_le (by positivity) (pow_le_pow_right₀ (by norm_num) ?_)
    have := unitExp_eq
    omega
  exact hunit.trans (div_le_div_of_nonneg_right h.one_le (by positivity))

/-- The share that a further rounding takes of the errors of `k` of them. -/
theorem share_le {k t : ℚ} (hk0 : 0 ≤ k) (hk : k + 1 ≤ 2 ^ 50) (ht : 0 ≤ t) :
    1 / 2 ^ 53 * (k * (k + 1) * t) ≤ k * t := by
  have hle : 1 / 2 ^ 53 * (k + 1) ≤ 1 := by
    rw [one_div_mul_eq_div, div_le_one (by positivity)]
    exact hk.trans (by norm_num)
  calc 1 / 2 ^ 53 * (k * (k + 1) * t)
      = (1 / 2 ^ 53 * (k + 1)) * (k * t) := by ring
    _ ≤ 1 * (k * t) := mul_le_mul_of_nonneg_right hle (mul_nonneg hk0 ht)
    _ = k * t := one_mul _

/-- No sum of that many samples comes near the end of the range. -/
theorem room_le {k : ℚ} (hk0 : 0 ≤ k) (hk : k + 1 ≤ 2 ^ 50) (hM : 0 ≤ M) (hsize : M ≤ 2 ^ 200) :
    (k + 1) * M + k * (k + 1) * (M / 2 ^ 53) ≤ 2 ^ 255 := by
  have hshare := share_le hk0 hk (div_nonneg hM (by positivity : (0 : ℚ) ≤ 2 ^ 53))
  have hprod : (k + 1) * M ≤ 2 ^ 50 * 2 ^ 200 := mul_le_mul hk hsize hM (by norm_num)
  have herrors : 2 ^ 53 * (k * (M / 2 ^ 53)) = k * M := by
    rw [mul_left_comm, mul_div_cancel₀ M (by positivity)]
  calc (k + 1) * M + k * (k + 1) * (M / 2 ^ 53)
      ≤ 2 ^ 50 * 2 ^ 200 + 2 ^ 50 * 2 ^ 200 := by linarith
    _ ≤ 2 ^ 255 := by norm_num

/-- The rounding errors of a sum. -/
theorem sum_near : ∀ {samples : List Double}, Moderate M samples →
    (samples.foldl Double.add zero).isFinite = true ∧
      Near (samples.foldl Double.add zero).value (samples.map value).sum
        (samples.length * (samples.length + 1) * (M / 2 ^ 53)) ∧
      |(samples.map value).sum| ≤ samples.length * M := by
  intro samples
  induction samples using List.reverseRecOn with
  | nil =>
    intro _
    refine ⟨by decide, ?_, by simp⟩
    simp [Near, value, units, mantissa, mag, zero]
  | append_singleton samples v ih =>
    intro h
    have hcount := h.count
    rw [List.length_append, List.length_singleton] at hcount
    obtain ⟨hfinite, hnear, hsum⟩ := ih
      ⟨fun u hu => h.finite u (List.mem_append_left _ hu), h.one_le, h.size, by omega⟩
    obtain ⟨hv, hvM⟩ := h.finite v (by simp)
    have hM : 0 ≤ M := zero_le_one.trans h.one_le
    have hk : (samples.length : ℚ) + 1 ≤ 2 ^ 50 := by exact_mod_cast hcount
    have hk0 : (0 : ℚ) ≤ samples.length := Nat.cast_nonneg _
    have hunit := h.unit_le
    obtain ⟨hadd, hvalue⟩ := add_finite hfinite hv
    have hexact : |(samples.map value).sum + v.value| ≤ (samples.length + 1) * M := by
      refine (abs_add_le _ _).trans ?_
      linarith
    have hshare := share_le hk0 hk (div_nonneg hM (by positivity : (0 : ℚ) ≤ 2 ^ 53))
    have hbig := room_le hk0 hk hM h.size
    obtain ⟨hfin, hnext⟩ := rounded_near (hnear.add (Near.refl v.value)) hexact (by rwa [add_zero])
    rw [List.foldl_append, List.map_append, List.sum_append, List.length_append, Nat.cast_add]
    simp only [List.foldl_cons, List.foldl_nil, List.map_cons, List.map_nil, List.sum_singleton, List.length_singleton,
      Nat.cast_one]
    refine ⟨hadd.trans hfin, ?_, hexact⟩
    rw [hvalue]
    refine hnext.mono ?_
    rw [add_zero]
    have hexpand : 1 / 2 ^ 53 * ((samples.length + 1) * M) = (samples.length + 1) * (M / 2 ^ 53) := by ring
    linarith

/-- A bound on what the roundings do to the thousandfold mean. -/
def drift (M : ℚ) (samples : List Double) : ℚ := 1000 * (samples.length + 7) * (M / 2 ^ 53)

theorem abs_mean_le (hne : samples ≠ []) (h : Moderate M samples) : |mean samples| ≤ M := by
  have hn : (0 : ℚ) < samples.length := by exact_mod_cast List.length_pos_iff.2 hne
  rw [mean, abs_div, abs_of_pos hn, div_le_iff₀ hn, mul_comm]
  exact (sum_near h).2.2

/-- **The roundings** of the operations. -/
theorem thousandfold_near (hne : samples ≠ []) (h : Moderate M samples) : (thousandfold samples).isFinite = true ∧
    Near (thousandfold samples).value (mean samples * 1000) (drift M samples) := by
  obtain ⟨hsum, hnear, hsize⟩ := sum_near h
  obtain ⟨hcount, hlength⟩ := ofRat_natCast (h.count.trans_lt (by norm_num))
  obtain ⟨hthousand, hvalue, -⟩ := ofRat_thousand
  have hn : (0 : ℚ) < samples.length := by exact_mod_cast List.length_pos_iff.2 hne
  have hn' : (samples.length : ℚ) ≤ 2 ^ 50 := by exact_mod_cast h.count
  have hM : 0 ≤ M := zero_le_one.trans h.one_le
  have ht : 0 ≤ M / 2 ^ 53 := div_nonneg hM (by norm_num)
  have hunit := h.unit_le
  have hM2 := h.size
  have hMt : M = 2 ^ 53 * (M / 2 ^ 53) := by rw [mul_div_cancel₀ M (by positivity)]
  -- the shares of the errors so far
  have hshare : ∀ c : ℚ, c ≤ 2 ^ 53 → 1 / 2 ^ 53 * (c * (M / 2 ^ 53)) ≤ M / 2 ^ 53 := fun c hc => by
    rw [← mul_assoc]
    refine mul_le_of_le_one_left ht ?_
    rw [one_div_mul_eq_div, div_le_one (by positivity)]
    exact hc
  have hmean := abs_mean_le hne h
  have hquotient := hnear.div_right samples.length
  have herror : samples.length * (samples.length + 1) * (M / 2 ^ 53) / |(samples.length : ℚ)| =
      (samples.length + 1) * (M / 2 ^ 53) := by
    rw [abs_of_pos hn]
    field_simp
  rw [herror] at hquotient
  obtain ⟨hfinite, hdiv⟩ := rounded_near hquotient hmean (by
    have := mul_le_mul_of_nonneg_right (show (samples.length : ℚ) + 1 ≤ 2 ^ 51 by linarith) ht
    linarith)
  have hsmall := hshare (samples.length + 1) (by linarith)
  have hdiv : Near (rnd ((samples.foldl Double.add zero).value / samples.length)) (mean samples)
      ((samples.length + 4) * (M / 2 ^ 53)) := by
    refine hdiv.mono ?_
    rw [mul_add]
    linarith
  obtain ⟨hfin, hrnd⟩ := div_finite hsum hcount (by rw [hlength]; exact hn.ne')
  rw [hlength] at hfin hrnd
  have hproduct := hdiv.mul_right 1000
  rw [abs_of_pos (show (0 : ℚ) < 1000 by norm_num)] at hproduct
  obtain ⟨hfinite', hmul⟩ := rounded_near hproduct (m := 1000 * M)
    (by rw [abs_mul, abs_of_pos (show (0 : ℚ) < 1000 by norm_num), mul_comm]; linarith) (by
      have := mul_le_mul_of_nonneg_right (show (samples.length : ℚ) + 4 ≤ 2 ^ 51 by linarith) ht
      linarith)
  obtain ⟨hfin', hrnd'⟩ := mul_finite (hfin.trans hfinite) hthousand
  rw [hrnd, hvalue] at hfin' hrnd'
  refine ⟨hfin'.trans hfinite', ?_⟩
  show Near ((Double.div _ _).mul _).value _ _
  rw [hrnd']
  refine hmul.mono ?_
  have hsmall' := hshare (samples.length + 4) (by linarith)
  rw [drift, mul_add (1 / 2 ^ 53)]
  linarith

/-- Away from the halves nothing goes wrong: the mean has its distance to them, the errors have theirs. -/
theorem steady_of_margin (hne : samples ≠ []) (h : Moderate M samples)
    (hmargin : ∀ k : ℤ, drift M samples < |mean samples * 1000 + 1 / 2 - k|) : Steady samples := by
  obtain ⟨hfinite, hnear⟩ := thousandfold_near hne h
  have hall : samples.all isFinite = true := List.all_eq_true.2 fun v hv => (h.finite v hv).1
  have hsame : toNearest (thousandfold samples).value = toNearest (mean samples * 1000) := by
    obtain ⟨hlow, hhigh⟩ := abs_le.1 hnear
    have hfloor := Int.floor_le (mean samples * 1000 + 1 / 2)
    have hceil := Int.lt_floor_add_one (mean samples * 1000 + 1 / 2)
    have hbelow := hmargin ⌊mean samples * 1000 + 1 / 2⌋
    have habove := hmargin (⌊mean samples * 1000 + 1 / 2⌋ + 1)
    rw [abs_of_nonneg (by linarith)] at hbelow
    rw [Int.cast_add, Int.cast_one, abs_of_nonpos (by linarith)] at habove
    unfold toNearest
    rw [Int.floor_eq_iff]
    constructor <;> linarith
  unfold Steady
  rw [hall, if_pos rfl, ← thousandfold_value hne (List.all_eq_true.1 hall), value?_finite hfinite, Option.map_some, hsame]

/-- Thousandths that are small enough have doubles of their own. -/
theorem thousandths_inj {k k' : ℤ} (hk : |(k : ℚ)| ≤ 2 ^ 51) (hk' : |(k' : ℚ) / 1000| < 2 ^ finiteExp)
    (h : thousandths k' = thousandths k) : k' = k := by
  have hthousand : |(1000 : ℚ)| = 1000 := by norm_num
  have hk2 : |(k : ℚ) / 1000| ≤ 2 ^ 51 / 1000 := by
    rw [abs_div, hthousand]
    exact div_le_div_of_nonneg_right hk (by norm_num)
  have hnear := rounds_rnd.bound _ (lt_finite (hk2.trans (by norm_num)))
  have hnear' := rounds_rnd.bound _ hk'
  rw [Cell.number.inj h] at hnear'
  have hunit : (1 : ℚ) / 2 ^ (unitExp + 1) ≤ 1 / 2 ^ 53 := by
    refine one_div_le_one_div_of_le (by positivity) (pow_le_pow_right₀ (by norm_num) ?_)
    have := unitExp_eq
    omega
  have hdiff := abs_sub_le ((k' : ℚ) / 1000) (rnd (k / 1000)) (k / 1000)
  rw [abs_sub_comm ((k' : ℚ) / 1000) (rnd (k / 1000))] at hdiff
  have htri := abs_sub_abs_le_abs_sub ((k' : ℚ) / 1000) (k / 1000)
  have hclose : |(k' : ℚ) / 1000 - k / 1000| < 1 / 1000 := by linarith
  rw [← sub_div, abs_div, hthousand, div_lt_div_iff_of_pos_right (by norm_num)] at hclose
  have hint : |k' - k| < 1 := by exact_mod_cast hclose
  rw [Int.abs_lt_one_iff, sub_eq_zero] at hint
  exact hint

/-- For means up to `2^41` the nearest integers have to be the same. -/
theorem steady_iff (hne : samples ≠ []) (hall : samples.all isFinite = true) (hsmall : |mean samples| ≤ 2 ^ 41) :
    Steady samples ↔
      (roundedThousandfold (samples.map value)).map toNearest = some (toNearest (mean samples * 1000)) := by
  unfold Steady
  rw [hall, if_pos rfl, ← thousandfold_value hne (List.all_eq_true.1 hall)]
  cases hfinite : (thousandfold samples).isFinite with
  | false => simp [value?_not_finite hfinite]
  | true =>
    rw [value?_finite hfinite, Option.map_some, Option.map_some, Option.some_inj, Option.some_inj]
    refine ⟨fun h => thousandths_inj ?_ (abs_thousandth_lt hfinite) h, fun h => congrArg thousandths h⟩
    obtain ⟨hlow, hhigh⟩ := abs_le.1 hsmall
    have hfloor := Int.floor_le (mean samples * 1000 + 1 / 2)
    have hceil := Int.lt_floor_add_one (mean samples * 1000 + 1 / 2)
    rw [toNearest, abs_le]
    constructor <;> linarith

/-- **How far an entry is from the mean**: half a thousandth, and the rounding errors. -/
theorem average_near (hne : samples ≠ []) (h : Moderate M samples) : ∃ v, Cell.ofDouble (average samples) = .number v ∧
    |v - mean samples| ≤ 1 / 2000 + (samples.length + 7) * (M / 2 ^ 53) + (M + 1) / 2 ^ 51 := by
  obtain ⟨hfinite, hnear⟩ := thousandfold_near hne h
  refine ⟨_, average_of_finite hfinite, ?_⟩
  have hM : 0 ≤ M := zero_le_one.trans h.one_le
  have hn' : (samples.length : ℚ) ≤ 2 ^ 50 := by exact_mod_cast h.count
  have ht : 0 ≤ M / 2 ^ 53 := div_nonneg hM (by norm_num)
  have hMt : M = 2 ^ 53 * (M / 2 ^ 53) := by rw [mul_div_cancel₀ M (by positivity)]
  have hunit := h.unit_le
  have hmean := abs_mean_le hne h
  have hround : |((toNearest (thousandfold samples).value : ℤ) : ℚ) - (thousandfold samples).value| ≤ 1 / 2 := by
    have hfloor := Int.floor_le ((thousandfold samples).value + 1 / 2)
    have hceil := Int.lt_floor_add_one ((thousandfold samples).value + 1 / 2)
    rw [toNearest, abs_le]
    constructor <;> linarith
  have hthousand : |(1000 : ℚ)| = 1000 := by norm_num
  have hthousandth : Near ((toNearest (thousandfold samples).value : ℤ) / 1000) (mean samples)
      (1 / 2000 + (samples.length + 7) * (M / 2 ^ 53)) := by
    have hboth := (Near.trans hround hnear).div_right 1000
    rw [mul_div_cancel_right₀ _ (by norm_num), hthousand] at hboth
    refine hboth.mono ?_
    rw [drift]
    linarith
  have hsize := hthousandth.abs_le hmean
  have hstored := rounds_rnd.bound _ (abs_thousandth_lt hfinite)
  have hcount := mul_le_mul_of_nonneg_right (show (samples.length : ℚ) + 7 ≤ 2 ^ 51 by linarith) ht
  unfold Near at hthousandth
  have htri := abs_sub_le (rnd ((toNearest (thousandfold samples).value : ℤ) / 1000))
    ((toNearest (thousandfold samples).value : ℤ) / 1000) (mean samples)
  have hshare := mul_le_mul_of_nonneg_left hsize (show (0 : ℚ) ≤ 1 / 2 ^ 53 by norm_num)
  linarith

end

end PudimNetMon.Dashboard
