import Battlemap.Proofs.Number.Arithmetic

/-!
# `Battlemap.Proofs.Number.Operations`: differences, products and converted integers

A difference is the sum with the opposite number (`sub_eq_add_neg`), so it is the single
nearest to the exact difference (`isNearest_sub`). A product is the one nearest to the
exact product (`isNearest_mul`), and a converted integer the one nearest to the integer
(`isNearest_ofUInt32`, `isNearest_ofUInt64`).

A nearest single need not be finite: too great a number becomes `infinity`
(`IsNearest.eq_infinity`). The last section says that infinity stays what it is when a
finite number is added or taken away, and when it is divided by a positive number.
-/

set_option autoImplicit false

namespace Battlemap

open Float.Model Float.Model.UnpackedFloat

namespace Single

variable {a b : Single}

/-! ### The opposite number -/

/-- Changing the sign leaves the magnitude alone. -/
theorem magnitude_neg (a : Single) : (-a).magnitude = a.magnitude := by
  rw [← UInt32.toNat_inj, toNat_magnitude, toNat_magnitude]
  show (a.bits ^^^ 0x80000000).toNat % 2 ^ 31 = _
  rw [UInt32.toNat_xor, Nat.xor_mod_two_pow]
  exact Nat.xor_zero _

/-- The sign is bit 31 of the pattern. -/
theorem signBit_eq_testBit (a : Single) : a.signBit = a.bits.toNat.testBit 31 := by
  have hlt := a.bits.toNat_lt
  rw [Bool.eq_iff_iff, signBit_eq_true_iff, Nat.testBit_eq_decide_div_mod_eq, decide_eq_true_eq]
  omega

/-- The sign changes to the opposite one. -/
theorem sign_neg (a : Single) : (-a).sign = -a.sign := by
  have hsign : (-a).signBit = !a.signBit := by
    rw [signBit_eq_testBit, signBit_eq_testBit]
    show (a.bits ^^^ 0x80000000).toNat.testBit 31 = _
    rw [UInt32.toNat_xor, Nat.testBit_xor]
    exact Bool.xor_true _
  unfold sign
  rw [hsign]
  cases a.signBit <;> rfl

/-- The exponent field is part of the magnitude. -/
theorem exponentField_neg (a : Single) : (-a).exponentField = a.exponentField := by
  unfold exponentField
  rw [magnitude_neg]

/-- So is the significand. -/
theorem significand_neg (a : Single) : (-a).significand = a.significand := by
  unfold significand
  rw [magnitude_neg, exponentField_neg]

/-- So a NaN stays one, and nothing else becomes one. -/
theorem isNaN_neg (a : Single) : (-a).isNaN = a.isNaN := by
  unfold isNaN
  rw [magnitude_neg]

/-- A finite number stays finite. -/
theorem isFinite_neg (a : Single) : (-a).isFinite = a.isFinite := by
  unfold isFinite
  rw [magnitude_neg]

/-- The rank changes its sign. -/
theorem rank_neg (a : Single) : (-a).rank = -a.rank := by
  rw [rank_eq_apply_sign, rank_eq_apply_sign, magnitude_neg, sign_neg]
  cases a.sign
  · exact (neg_neg _).symm
  · rfl

/-- So does the number of units. -/
theorem units_neg (a : Single) : (-a).units = -a.units := by
  rw [units, units, significand_neg, exponentField_neg, sign_neg]
  cases a.sign
  · exact (neg_neg _).symm
  · rfl

/-- Rounding is the same on both sides of zero. -/
theorem IsNearest.neg {y : ℚ} (h : a.IsNearest y) : (-a).IsNearest (-y) where
  isNaN := by
    rw [isNaN_neg]
    exact h.isNaN
  rank := by rw [rank_neg, nearestRank_neg, h.rank]

/-- A finite number is unpacked with the opposite sign. -/
theorem unpacked_neg (h : a.isFinite = true) :
    (-a).unpacked = UnpackedFloat.neg a.unpacked := by
  rw [unpacked_of_isFinite h, unpacked_of_isFinite (a := -a) (by rw [isFinite_neg, h])]
  simp only [significand_neg, sign_neg, exponent, exponentField_neg]
  split <;> rfl

/-! ### Differences -/

/-- The difference of singles is the rounded difference of what they are unpacked to. -/
theorem sub_eq (a b : Single) :
    a - b = ofUnpacked (UnpackedFloat.sub Format.binary32 a.unpacked b.unpacked) := rfl

/-- Subtracting a finite number is adding it with the opposite sign. -/
protected theorem sub_eq_add_neg (a : Single) (hb : b.isFinite = true) : a - b = a + -b := by
  rw [sub_eq, add_eq, unpacked_neg hb, unpackedSub_eq_add_neg]

/-- The difference of two finite singles is the single nearest to the exact difference. -/
theorem isNearest_sub (ha : a.isFinite = true) (hb : b.isFinite = true) :
    (a - b).IsNearest (a.units - b.units) := by
  have hsum := isNearest_add ha (b := -b) (by rw [isFinite_neg, hb])
  rw [units_neg] at hsum
  rw [Single.sub_eq_add_neg a hb, sub_eq_add_neg]
  exact_mod_cast hsum

/-! ### Products -/

/-- The product of singles is the rounded product of what they are unpacked to. -/
theorem mul_eq (a b : Single) :
    a * b = ofUnpacked (UnpackedFloat.mul Format.binary32 a.unpacked b.unpacked) := rfl

/-- A mantissa without its leading digit is that of the least exponent. -/
theorem exponent_eq_or_two_pow_le (a : Single) : a.exponent = -149 ∨ 2 ^ 23 ≤ a.significand := by
  by_cases hfield : a.exponentField - 1 = 0
  · left
    unfold exponent
    omega
  · exact .inr (two_pow_le_significand hfield)

/-- The product of two finite singles is the single nearest to the exact product. -/
theorem isNearest_mul (ha : a.isFinite = true) (hb : b.isFinite = true) :
    (a * b).IsNearest (a.units * b.units / 2 ^ 149) := by
  rw [mul_eq, unpacked_of_isFinite ha, unpacked_of_isFinite hb]
  by_cases hza : a.significand = 0
  · rw [dif_pos hza, units_eq_zero_iff.mpr hza, Int.cast_zero, zero_mul, zero_div]
    split <;> exact isNearest_zero _
  · by_cases hzb : b.significand = 0
    · rw [dif_neg hza, dif_pos hzb, units_eq_zero_iff.mpr hzb, Int.cast_zero, mul_zero, zero_div]
      exact isNearest_zero _
    · rw [dif_neg hza, dif_neg hzb, UnpackedFloat.mul]
      have hscale (e : Int) : (2 : ℚ) ^ (e + 149) = 2 ^ e * 2 ^ 149 := by
        rw [zpow_add₀ two_ne_zero, zpow_ofNat]
      -- Exactly, the significands are multiplied and the exponents added; one rounding follows.
      have hproduct : (a.units : ℚ) * b.units / 2 ^ 149 = ((a.sign * b.sign).apply 1 : Int)
          * ((a.significand * b.significand : Nat) * 2 ^ (a.exponent + b.exponent + 149)) := by
        rw [units_eq, units_eq, ← apply_mul_apply, hscale, hscale, hscale, zpow_add₀ two_ne_zero]
        push_cast
        field_simp
      rw [hproduct]
      exact .of_has (by positivity) (has_roundWithAccuracy _ (approximates_exact _)
        (le_targetExponent_mul (Nat.pos_of_ne_zero hza) (Nat.pos_of_ne_zero hzb)
          (exponent_eq_or_two_pow_le a) (exponent_eq_or_two_pow_le b)))

/-! ### Converted integers -/

/-- A converted integer is the single nearest to it. -/
theorem isNearest_ofUInt64 (n : UInt64) : (ofUInt64 n).IsNearest (n.toNat * 2 ^ 149) :=
  isNearest_normalize n.toNat 0

/-- A count is converted to the single nearest to it. -/
theorem isNearest_ofUInt32 (n : UInt32) : (ofUInt32 n).IsNearest (n.toNat * 2 ^ 149) :=
  isNearest_normalize n.toNat 0

/-! ### Infinity -/

/-- Infinity is unpacked to itself. -/
theorem unpacked_infinity : infinity.unpacked = .infinity .positive := rfl

/-- Negative infinity is unpacked to itself. -/
theorem unpacked_negInfinity : negInfinity.unpacked = .infinity .negative := rfl

/-- A number is finite or one of the two infinities. -/
theorem infinite_cases (hnumber : a.isNaN = false) (h : a.isFinite = false) :
    a = infinity ∨ a = negInfinity := by
  have hle := isNaN_eq_false_iff.mp hnumber
  have hge : 255 * 2 ^ 23 ≤ a.magnitude.toNat := by
    rw [isFinite, decide_eq_false_iff_not, UInt32.lt_iff_toNat_lt, Nat.not_lt] at h
    exact h
  have hmagnitude : a.magnitude.toNat = 255 * 2 ^ 23 := le_antisymm hle hge
  cases hsign : a.sign with
  | positive => exact .inl (ext_of_has ⟨hsign, hmagnitude⟩ ⟨rfl, rfl⟩)
  | negative => exact .inr (ext_of_has ⟨hsign, hmagnitude⟩ ⟨rfl, rfl⟩)

/-- A number at or above zero is infinity or finite. -/
theorem eq_infinity_of_not_isFinite (hnumber : a.isNaN = false) (hrank : 0 ≤ a.rank)
    (h : a.isFinite = false) : a = infinity := by
  rcases infinite_cases hnumber h with rfl | rfl
  · rfl
  · exact absurd hrank (by decide)

/-- What is not negative is rounded to a rank that is not negative. -/
theorem nearestRank_nonneg {y : ℚ} (h : 0 ≤ y) : 0 ≤ nearestRank y := by
  rw [nearestRank_of_nonneg h]
  exact Int.natCast_nonneg _

/-- The single nearest to a number that is not negative is infinity or finite. -/
theorem IsNearest.eq_infinity {y : ℚ} (h : a.IsNearest y) (hy : 0 ≤ y)
    (hinfinite : a.isFinite = false) : a = infinity :=
  eq_infinity_of_not_isFinite h.isNaN (h.rank ▸ nearestRank_nonneg hy) hinfinite

/-- Infinity absorbs a finite number that it is added to. -/
theorem add_infinity (ha : a.isFinite = true) : a + infinity = infinity := by
  rw [add_eq, unpacked_of_isFinite ha, unpacked_infinity]
  split <;> rfl

/-- Infinity absorbs a finite number that is added. -/
theorem infinity_add (ha : a.isFinite = true) : infinity + a = infinity := by
  rw [add_eq, unpacked_of_isFinite ha, unpacked_infinity]
  split <;> rfl

/-- So does negative infinity. -/
theorem negInfinity_add (ha : a.isFinite = true) : negInfinity + a = negInfinity := by
  rw [add_eq, unpacked_of_isFinite ha, unpacked_negInfinity]
  split <;> rfl

/-- Adding a finite number to a number gives a number. -/
theorem isNaN_add (ha : a.isNaN = false) (hb : b.isFinite = true) : (a + b).isNaN = false := by
  cases hfinite : a.isFinite with
  | true => exact (isNearest_add hfinite hb).isNaN
  | false =>
    rcases infinite_cases ha hfinite with rfl | rfl
    · rw [infinity_add hb]
      rfl
    · rw [negInfinity_add hb]
      rfl

/-- Infinity absorbs a finite number that is taken away. -/
theorem infinity_sub (ha : a.isFinite = true) : infinity - a = infinity := by
  rw [sub_eq, unpacked_of_isFinite ha, unpacked_infinity]
  split <;> rfl

/-- So does negative infinity. -/
theorem negInfinity_sub (ha : a.isFinite = true) : negInfinity - a = negInfinity := by
  rw [sub_eq, unpacked_of_isFinite ha, unpacked_negInfinity]
  split <;> rfl

/-- A positive number of units has no minus sign. -/
theorem sign_of_units_pos (hpos : 0 < a.units) : a.sign = .positive := by
  cases hsign : a.sign with
  | positive => rfl
  | negative =>
    rw [units, hsign] at hpos
    exact absurd hpos (by simp only [Sign.apply]; omega)

/-- Infinity stays what it is when it is divided by a positive number. -/
theorem infinity_div (ha : a.isFinite = true) (hpos : 0 < a.units) : infinity / a = infinity := by
  have hne : a.significand ≠ 0 := fun hzero => hpos.ne' (units_eq_zero_iff.mpr hzero)
  rw [div_eq, unpacked_of_isFinite ha, unpacked_infinity, dif_neg hne, sign_of_units_pos hpos]
  rfl

/-- So does negative infinity. -/
theorem negInfinity_div (ha : a.isFinite = true) (hpos : 0 < a.units) :
    negInfinity / a = negInfinity := by
  have hne : a.significand ≠ 0 := fun hzero => hpos.ne' (units_eq_zero_iff.mpr hzero)
  rw [div_eq, unpacked_of_isFinite ha, unpacked_negInfinity, dif_neg hne, sign_of_units_pos hpos]
  rfl

/-- A quotient of a number, which may be infinite, by a positive finite one is a number. -/
theorem isNaN_div (ha : a.isNaN = false) (hb : b.isFinite = true) (hpos : 0 < b.units) :
    (a / b).isNaN = false := by
  cases hfinite : a.isFinite with
  | true => exact (isNearest_div hfinite hb hpos.ne').isNaN
  | false =>
    rcases infinite_cases ha hfinite with rfl | rfl
    · rw [infinity_div hb hpos]
      rfl
    · rw [negInfinity_div hb hpos]
      rfl

end Single

end Battlemap
