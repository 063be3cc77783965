import Battlemap.Proofs.Number.Error

/-!
# `Battlemap.Proofs.Number.Whole`: whole singles and machine integers

One is `2 ^ 149` units, so the whole singles are those whose units are a multiple of that
(`Single.IsWhole`). What `ceil` and `round` do to the units follows from one lemma about
`toWhole` (`toWhole_cases`): the significand is split into a whole part and a rest, and the
whole part is kept or goes up by one. The ceiling is not below the number
(`units_le_units_ceil`), the floor is not above it and less than one away
(`units_floor_bounds`), and the rounded number is at most one half away
(`units_round_bounds`).

A conversion to a machine integer gives the whole part, clamped to the range of the type
(`toIntWithin_of_nonneg`, `toIntWithin_of_isWhole`).
-/

set_option autoImplicit false

namespace Battlemap

open Float.Model.UnpackedFloat (Sign)

namespace Single

variable {a : Single} {y : ℚ}

/-! ### Converted integers -/

/-- A number that is not too large has a finite nearest single. -/
theorem IsNearest.isFinite_of_le (h : a.IsNearest y) (hy : 0 ≤ y) (hle : y ≤ 2 ^ 64 * 2 ^ 149) :
    a.isFinite = true := by
  have hpower : Single.IsNearest ⟨0x5f800000⟩ (2 ^ 64 * 2 ^ 149) := by
    have hunits := isNearest_units (a := ⟨0x5f800000⟩) rfl
    rw [show Single.units ⟨0x5f800000⟩ = 2 ^ 64 * 2 ^ 149 from rfl] at hunits
    exact_mod_cast hunits
  exact isFinite_of_le_of_le (h.zero_le hy) (h.le hpower hle) rfl rfl

/-- A count of 64 bits is converted to a finite single. -/
theorem isFinite_ofUInt64 (n : UInt64) : (ofUInt64 n).isFinite = true := by
  have hlt : (n.toNat : ℚ) ≤ 2 ^ 64 := by exact_mod_cast n.toNat_lt.le
  exact (isNearest_ofUInt64 n).isFinite_of_le (by positivity) (by gcongr)

/-- So is one of 32 bits. -/
theorem isFinite_ofUInt32 (n : UInt32) : (ofUInt32 n).isFinite = true := by
  have hlt : (n.toNat : ℚ) ≤ 2 ^ 64 := by
    exact_mod_cast n.toNat_lt.le.trans (Nat.pow_le_pow_right two_pos (by norm_num))
  exact (isNearest_ofUInt32 n).isFinite_of_le (by positivity) (by gcongr)

/-- An integer of at most 24 binary digits is converted as it is. -/
theorem units_ofUInt64 {n : UInt64} (h : n.toNat < 2 ^ 24) :
    (ofUInt64 n).units = n.toNat * 2 ^ 149 :=
  le_antisymm
    ((isNearest_ofUInt64 n).units_le_of_short (isFinite_ofUInt64 n) (by positivity) h le_rfl)
    ((isNearest_ofUInt64 n).le_units_of_short (isFinite_ofUInt64 n) h.le le_rfl)

/-- A whole number with a sign is converted to a finite single. -/
theorem isFinite_ofWhole (negative : Bool) (n : ℕ) : (ofWhole negative n).isFinite = true := by
  unfold ofWhole
  cases negative
  · exact isFinite_ofUInt64 _
  · exact (isFinite_neg _).trans (isFinite_ofUInt64 _)

/-- A whole number of 24 digits is converted without rounding. -/
theorem units_ofWhole_signBit (a : Single) {n : ℕ} (h : n < 2 ^ 24) :
    (ofWhole a.signBit n).units = a.sign.apply (n * 2 ^ 149 : ℕ) := by
  have htoNat : n.toUInt64.toNat = n :=
    UInt64.toNat_ofNat_of_lt' (h.trans (by decide))
  have hunits := units_ofUInt64 (htoNat.symm ▸ h : n.toUInt64.toNat < 2 ^ 24)
  rw [htoNat] at hunits
  unfold ofWhole sign
  cases a.signBit
  · exact_mod_cast hunits
  · show (-ofUInt64 n.toUInt64).units = _
    rw [units_neg, hunits]
    push_cast
    rfl

/-! ### Whole numbers -/

/-- A single is a whole number. -/
structure IsWhole (a : Single) : Prop where
  isFinite : a.isFinite = true
  dvd : (2 ^ 149 : ℤ) ∣ a.units

/-- What it means to go to a whole number. A number without a fractional part stays;
otherwise the significand is split at the digit of one. -/
theorem toWhole_cases (carry : ℕ → ℕ → Bool) (ha : a.isFinite = true) :
    (a.toWhole carry = a ∧ (2 ^ 149 : ℤ) ∣ a.units) ∨
      ∃ k f whole rest : ℕ, k + f = 149 ∧ rest < 2 ^ k ∧
        a.units = a.sign.apply (whole * 2 ^ 149 + rest * 2 ^ f : ℕ) ∧
        (a.toWhole carry).isFinite = true ∧
        (a.toWhole carry).units
          = a.sign.apply ((if carry rest (2 ^ k) then whole + 1 else whole) * 2 ^ 149 : ℕ) := by
  have hexponent : a.exponent = (a.exponentField - 1 : ℕ) - 149 := by
    unfold exponent
    omega
  unfold toWhole
  rw [ha, Bool.true_and]
  by_cases hneg : a.exponent < 0
  · rw [decide_eq_true hneg, if_pos rfl]
    right
    have hsum : (-a.exponent).toNat + (a.exponentField - 1) = 149 := by omega
    have hpos : (-a.exponent).toNat ≠ 0 := by omega
    generalize (-a.exponent).toNat = k at *
    have hlt := significand_lt a
    -- The whole part has lost at least one digit, so there is room for one more.
    have hwhole : a.significand / Nat.pow 2 k < 2 ^ 23 := by
      refine (Nat.div_lt_iff_lt_mul (Nat.two_pow_pos k)).mpr ?_
      calc a.significand < 2 ^ 23 * 2 ^ 1 := hlt
        _ ≤ 2 ^ 23 * 2 ^ k := by gcongr; exacts [by norm_num, Nat.pos_of_ne_zero hpos]
    refine ⟨k, a.exponentField - 1, a.significand / 2 ^ k, a.significand % 2 ^ k, hsum,
      Nat.mod_lt _ (Nat.two_pow_pos k), ?_, isFinite_ofWhole _ _, ?_⟩
    · have hone : 2 ^ 149 = 2 ^ k * 2 ^ (a.exponentField - 1) := by rw [← pow_add, hsum]
      rw [hone, ← mul_assoc, ← add_mul, Nat.div_add_mod']
      rfl
    · exact units_ofWhole_signBit a (by split <;> omega)
  · rw [decide_eq_false hneg]
    left
    refine ⟨rfl, ?_⟩
    have hpower : 2 ^ (a.exponentField - 1) = 2 ^ (a.exponentField - 1 - 149) * 2 ^ 149 := by
      rw [← pow_add]
      congr 1
      omega
    rw [units, hpower, ← mul_assoc]
    exact dvd_apply (by exact_mod_cast Dvd.intro_left _ rfl)

/-- Whichever way it is rounded, a finite number goes to a whole one. -/
theorem isWhole_toWhole (carry : ℕ → ℕ → Bool) (ha : a.isFinite = true) :
    (a.toWhole carry).IsWhole := by
  rcases toWhole_cases carry ha with ⟨hstays, hdvd⟩ | ⟨k, f, whole, rest, -, -, -, hfinite, hunits⟩
  · rw [hstays]
    exact ⟨ha, hdvd⟩
  · refine ⟨hfinite, ?_⟩
    rw [hunits]
    exact dvd_apply (by exact_mod_cast Dvd.intro_left _ rfl)

/-- Rounding up goes to a whole number. -/
theorem isWhole_ceil (ha : a.isFinite = true) : a.ceil.IsWhole := isWhole_toWhole _ ha

/-- Rounding to nearest goes to a whole number. -/
theorem isWhole_round (ha : a.isFinite = true) : a.round.IsWhole := isWhole_toWhole _ ha

/-- The rest, in units, is less than one, and compares to one half as it does to half of
the unit that it counts. -/
theorem rest_mul_two_pow {k f rest : ℕ} (hsum : k + f = 149) (hrest : rest < 2 ^ k) :
    rest * 2 ^ f < 2 ^ 149 ∧ (2 ^ k ≤ 2 * rest ↔ 2 ^ 149 ≤ 2 * (rest * 2 ^ f)) := by
  have hscale : 0 < 2 ^ f := Nat.two_pow_pos f
  rw [← hsum, pow_add, ← mul_assoc]
  exact ⟨Nat.mul_lt_mul_of_pos_right hrest hscale, (Nat.mul_le_mul_right_iff hscale).symm⟩

/-- The ceiling is not below the number. -/
theorem units_le_units_ceil (ha : a.isFinite = true) : a.units ≤ a.ceil.units := by
  unfold ceil
  rcases toWhole_cases (fun rest _ => !a.signBit && rest != 0) ha with
    ⟨hstays, -⟩ | ⟨k, f, whole, rest, hsum, hrest, hunits, -, hceil⟩
  · rw [hstays]
  · obtain ⟨hlt, -⟩ := rest_mul_two_pow hsum hrest
    rw [hunits, hceil]
    unfold sign
    cases a.signBit with
    | true =>
      -- Below zero the rest is dropped.
      simp only [Bool.not_true, Bool.false_and, Bool.false_eq_true, if_false, if_true, Sign.apply]
      omega
    | false =>
      cases rest with
      | zero => simp [Sign.apply]
      | succ rest =>
        simp only [Bool.not_false, Bool.true_and, bne_iff_ne, ne_eq, Nat.succ_ne_zero,
          not_false_eq_true, if_true, Bool.false_eq_true, if_false, Sign.apply]
        omega

/-- The rounded number is at most one half away. -/
theorem units_round_bounds (ha : a.isFinite = true) :
    2 * a.units ≤ 2 * a.round.units + 2 ^ 149 ∧ 2 * a.round.units ≤ 2 * a.units + 2 ^ 149 := by
  unfold round
  rcases toWhole_cases (fun rest unit => decide (unit ≤ 2 * rest)) ha with
    ⟨hstays, -⟩ | ⟨k, f, whole, rest, hsum, hrest, hunits, -, hround⟩
  · rw [hstays]
    omega
  · obtain ⟨hlt, hhalf⟩ := rest_mul_two_pow hsum hrest
    rw [hunits, hround]
    generalize rest * 2 ^ f = part at *
    simp only [decide_eq_true_eq, hhalf]
    cases a.sign <;> simp only [Sign.apply] <;> split <;> omega

/-- A number that is not negative stays so when it is rounded. -/
theorem units_round_nonneg (ha : a.isFinite = true) (h : 0 ≤ a.units) : 0 ≤ a.round.units := by
  obtain ⟨n, hn⟩ := (isWhole_round ha).dvd
  have hlow := (units_round_bounds ha).1
  omega

/-! ### The floor -/

/-- The floor is a whole number, and the number is above it by less than one. -/
theorem units_floor_bounds (ha : a.isFinite = true) :
    a.floor.units ≤ a.units ∧ a.units < a.floor.units + 2 ^ 149 := by
  unfold floor
  rcases toWhole_cases (fun rest _ => a.signBit && rest != 0) ha with
    ⟨hstays, -⟩ | ⟨k, f, whole, rest, hsum, hrest, hunits, -, hfloor⟩
  · rw [hstays]
    omega
  · obtain ⟨hlt, -⟩ := rest_mul_two_pow hsum hrest
    rw [hunits, hfloor]
    unfold sign
    cases a.signBit with
    | false =>
      -- Above zero the rest is dropped.
      simp only [Bool.false_and, Bool.false_eq_true, if_false, Sign.apply]
      omega
    | true =>
      cases rest with
      | zero => simp [Sign.apply]
      | succ rest =>
        simp only [Bool.true_and, bne_iff_ne, ne_eq, Nat.succ_ne_zero,
          not_false_eq_true, if_true, Sign.apply]
        have hpos : 0 < 2 ^ f := Nat.two_pow_pos f
        have hpart : 0 < (rest + 1) * 2 ^ f := by positivity
        omega

/-- Rounding down goes to a whole number. -/
theorem isWhole_floor (ha : a.isFinite = true) : a.floor.IsWhole := isWhole_toWhole _ ha

/-- The floor, in units. -/
theorem units_floor (ha : a.isFinite = true) :
    a.floor.units = a.units / 2 ^ 149 * 2 ^ 149 := by
  obtain ⟨n, hn⟩ := (isWhole_floor ha).dvd
  obtain ⟨hlow, hhigh⟩ := units_floor_bounds ha
  omega

/-! ### Machine integers -/

/-- The whole part, in units. -/
theorem wholeMagnitude_eq (a : Single) : a.wholeMagnitude = a.units.natAbs / 2 ^ 149 := by
  have hexponent : a.exponent = (a.exponentField - 1 : ℕ) - 149 := by
    unfold exponent
    omega
  rw [natAbs_units]
  unfold wholeMagnitude
  split
  case isTrue hnonneg =>
    have hsum : a.exponentField - 1 = a.exponent.toNat + 149 := by omega
    rw [hsum, pow_add, ← mul_assoc, Nat.mul_div_cancel _ (by positivity)]
    rfl
  case isFalse hneg =>
    have hsum : 149 = (a.exponentField - 1) + (-a.exponent).toNat := by omega
    have hpower : 2 ^ 149 = 2 ^ (a.exponentField - 1) * 2 ^ (-a.exponent).toNat := by
      rw [← pow_add, ← hsum]
    rw [hpower, mul_comm a.significand, Nat.mul_div_mul_left _ _ (by positivity)]
    rfl

/-- Converting a number that is not negative cuts it to its whole part, within the range. -/
theorem toIntWithin_of_nonneg {low high : ℤ} (ha : a.isFinite = true) (h : 0 ≤ a.units) :
    a.toIntWithin low high = max low (min high (a.units / 2 ^ 149)) := by
  have hwhole : (if a.signBit then -(a.wholeMagnitude : ℤ) else a.wholeMagnitude)
      = a.units / 2 ^ 149 := by
    rw [wholeMagnitude_eq]
    split
    case isTrue hsign =>
      -- The only such number with a sign is zero.
      have hzero : a.units = 0 := by
        refine le_antisymm ?_ h
        rw [units, sign, if_pos hsign]
        exact neg_nonpos.mpr (Int.natCast_nonneg _)
      rw [hzero]
      rfl
    case isFalse =>
      push_cast
      rw [abs_of_nonneg h]
  unfold toIntWithin
  rw [isNaN_of_isFinite ha, ha]
  simp only [Bool.false_eq_true, if_false, if_true, hwhole]

/-- A whole number is converted to itself, within the range. -/
theorem toIntWithin_of_isWhole {low high n : ℤ} (ha : a.isFinite = true)
    (hn : a.units = n * 2 ^ 149) : a.toIntWithin low high = max low (min high n) := by
  have hwhole : (if a.signBit then -(a.wholeMagnitude : ℤ) else a.wholeMagnitude) = n := by
    -- Nothing is cut off, since the units are a multiple of those of one.
    have hmagnitude : a.wholeMagnitude = n.natAbs := by
      rw [wholeMagnitude_eq, hn, Int.natAbs_mul]
      exact Nat.mul_div_cancel _ (by positivity)
    rw [hmagnitude]
    rw [units, sign] at hn
    split
    case isTrue hsign =>
      rw [if_pos hsign] at hn
      simp only [Sign.apply] at hn
      omega
    case isFalse hsign =>
      rw [if_neg hsign] at hn
      simp only [Sign.apply] at hn
      omega
  unfold toIntWithin
  rw [isNaN_of_isFinite ha, ha]
  simp only [Bool.false_eq_true, if_false, if_true, hwhole]

/-- The floor of a number as a signed word. -/
theorem toInt_toInt64_floor (ha : a.isFinite = true) :
    a.floor.toInt64.toInt = max (-2 ^ 63) (min (2 ^ 63 - 1) (a.units / 2 ^ 149)) := by
  unfold toInt64
  rw [toIntWithin_of_isWhole (isWhole_floor ha).isFinite (units_floor ha),
    show Int64.minValue.toInt = -2 ^ 63 from rfl, show Int64.maxValue.toInt = 2 ^ 63 - 1 from rfl,
    Int64.toInt_ofInt_of_le (by omega) (by omega)]

/-- What is not negative is cut to its whole part, or to the greatest signed word. -/
theorem toInt_toInt64 (ha : a.isFinite = true) (h : 0 ≤ a.units) :
    a.toInt64.toInt = min (2 ^ 63 - 1) (a.units / 2 ^ 149) := by
  have hwhole : 0 ≤ a.units / 2 ^ 149 := Int.ediv_nonneg h (by norm_num)
  unfold toInt64
  rw [toIntWithin_of_nonneg ha h, show Int64.minValue.toInt = -2 ^ 63 from rfl,
    show Int64.maxValue.toInt = 2 ^ 63 - 1 from rfl, Int64.toInt_ofInt_of_le (by omega) (by omega)]
  omega

/-- What is not negative is cut to its whole part, or to the greatest word. -/
theorem toNat_toUInt64 (ha : a.isFinite = true) (h : 0 ≤ a.units) :
    (a.toUInt64.toNat : ℤ) = min (2 ^ 64 - 1) (a.units / 2 ^ 149) := by
  have hwhole : 0 ≤ a.units / 2 ^ 149 := Int.ediv_nonneg h (by norm_num)
  unfold toUInt64
  rw [toIntWithin_of_nonneg ha h, show (UInt64.size - 1 : ℤ) = 2 ^ 64 - 1 from rfl]
  rw [UInt64.toNat_ofNat_of_lt' (by show _ < 2 ^ 64; omega)]
  omega

end Single

end Battlemap
