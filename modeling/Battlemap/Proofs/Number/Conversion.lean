import Battlemap.Proofs.Number.Double
import Battlemap.Proofs.Number.Error

/-!
# `Battlemap.Proofs.Number.Conversion`: from singles to doubles and back

A ratio is narrowed by integer arithmetic only. What comes out is the count of the nearest
magnitude (`nearest_single`), so narrowing is rounding as the hardware does it:
`Single.ofRatio` and `Single.ofDouble` give the nearest single (`Single.isNearest_ofRatio`,
`Single.isNearest_ofDouble`). In the other direction a small single keeps its number but for
two units of the double (`Single.within_toDouble`).
-/

set_option autoImplicit false

namespace Battlemap

open Float.Model.UnpackedFloat (Sign)

/-! ### Narrowing a ratio -/

namespace BinaryFormat

/-- A quotient is rounded as the number that it is. -/
theorem roundQuotient_eq (num : Nat) {den : Nat} (hden : 0 < den) :
    roundQuotient num den = roundEven (num / den) := by
  have hden' : (0 : ℚ) < den := by exact_mod_cast hden
  have hrest : (num : ℚ) / den - (num / den : ℕ) = (num % den : ℕ) / den := by
    rw [sub_eq_iff_eq_add, div_eq_iff hden'.ne', add_mul, div_mul_cancel₀ _ hden'.ne']
    exact_mod_cast (Nat.mod_add_div' num den).symm
  have hbelow : (num % den : ℕ) / (den : ℚ) < 1 / 2 ↔ 2 * (num % den) < den := by
    rw [div_lt_div_iff₀ hden' two_pos, one_mul, mul_comm]
    exact_mod_cast Iff.rfl
  have habove : 1 / 2 < (num % den : ℕ) / (den : ℚ) ↔ den < 2 * (num % den) := by
    rw [div_lt_div_iff₀ two_pos hden', one_mul, mul_comm]
    exact_mod_cast Iff.rfl
  rw [roundQuotient, roundEven, Nat.floor_div_eq_div, hrest]
  simp only [hbelow, habove]

/-- A ratio is compared with a power of two without dividing. -/
theorem mul_two_pow_lt_iff {num den : Nat} (hden : 0 < den) (e : Int) :
    num * 2 ^ (-e).toNat < den * 2 ^ e.toNat ↔ (num : ℚ) / den < 2 ^ e := by
  have hden' : (0 : ℚ) < den := by exact_mod_cast hden
  rw [two_zpow_eq_div, div_lt_div_iff₀ hden' (by positivity), mul_comm (2 ^ e.toNat : ℚ)]
  exact_mod_cast Iff.rfl

/-- The ratio lies in the binade that was found for it. -/
theorem floorLog2_spec {num den : Nat} (hnum : 0 < num) (hden : 0 < den) :
    (2 : ℚ) ^ floorLog2 num den ≤ num / den ∧ (num : ℚ) / den < 2 ^ (floorLog2 num den + 1) := by
  have hnum' : (0 : ℚ) < num := by exact_mod_cast hnum
  have hden' : (0 : ℚ) < den := by exact_mod_cast hden
  have hnumLow : (2 : ℚ) ^ num.log2 ≤ num := by exact_mod_cast Nat.log2_self_le hnum.ne'
  have hnumHigh : (num : ℚ) < 2 ^ (num.log2 + 1) := by exact_mod_cast Nat.lt_log2_self
  have hdenLow : (2 : ℚ) ^ den.log2 ≤ den := by exact_mod_cast Nat.log2_self_le hden.ne'
  have hdenHigh : (den : ℚ) < 2 ^ (den.log2 + 1) := by exact_mod_cast Nat.lt_log2_self
  -- The guess from the two lengths is off by one at most.
  have hhigh : (num : ℚ) / den < 2 ^ ((num.log2 : Int) - den.log2 + 1) := by
    rw [div_lt_iff₀ hden']
    calc (num : ℚ) < 2 ^ (num.log2 + 1) := hnumHigh
      _ = 2 ^ ((num.log2 : Int) - den.log2 + 1) * 2 ^ den.log2 := by
        rw [← zpow_natCast, ← zpow_natCast, ← zpow_add₀ two_ne_zero]
        congr 1
        push_cast
        ring
      _ ≤ 2 ^ ((num.log2 : Int) - den.log2 + 1) * den := by gcongr
  have hlow : (2 : ℚ) ^ ((num.log2 : Int) - den.log2 - 1) ≤ num / den := by
    rw [le_div_iff₀ hden']
    calc (2 : ℚ) ^ ((num.log2 : Int) - den.log2 - 1) * den
        ≤ 2 ^ ((num.log2 : Int) - den.log2 - 1) * 2 ^ (den.log2 + 1) := by gcongr
      _ = 2 ^ num.log2 := by
        rw [← zpow_natCast, ← zpow_natCast, ← zpow_add₀ two_ne_zero]
        congr 1
        push_cast
        ring
      _ ≤ num := hnumLow
  rw [floorLog2]
  dsimp only [Nat.pow_eq]
  split
  case isTrue hlt =>
    rw [sub_add_cancel]
    exact ⟨hlow, (mul_two_pow_lt_iff hden _).mp hlt⟩
  case isFalse hge => exact ⟨not_lt.mp (mt (mul_two_pow_lt_iff hden _).mpr hge), hhigh⟩

/-- What is nearest to a ratio is counted as what is nearest to its units. -/
theorem nearest_single (num : Nat) {den : Nat} (hden : 0 < den) :
    single.nearest num den = min (nearestCount (num / den * 2 ^ 149)) (255 * 2 ^ 23) := by
  rcases Nat.eq_zero_or_pos num with rfl | hnum
  · rw [nearest, if_pos (.inl rfl), Nat.cast_zero, zero_div, zero_mul, nearestCount_zero]
    rfl
  have hden' : (0 : ℚ) < den := by exact_mod_cast hden
  obtain ⟨hlow, hhigh⟩ := floorLog2_spec hnum hden
  rw [nearest, if_neg (by omega)]
  dsimp only [Nat.pow_eq]
  rw [show single.leastExponent = -149 from rfl, show single.infinity = 255 * 2 ^ 23 from rfl,
    show single.fractionBits = 23 from rfl]
  generalize floorLog2 num den = k at *
  have hscale (e : Int) : (2 : ℚ) ^ (e + 149) = 2 ^ e * 2 ^ 149 := by
    rw [zpow_add₀ two_ne_zero, zpow_ofNat]
  -- The spacing of the format is that of the binade of the ratio, or the least one.
  have hdoublings : (doublings ((num : ℚ) / den * 2 ^ 149) : Int) = max (k - 23) (-149) + 149 := by
    rw [doublings_eq_of_binade (k := k + 149)]
    · omega
    · rw [hscale]
      gcongr
    · rw [add_right_comm, hscale]
      gcongr
  generalize hspacing : max (k - 23) (-149) = spacing at *
  have hrounded : (num : ℚ) / den * 2 ^ 149 / 2 ^ doublings ((num : ℚ) / den * 2 ^ 149)
      = ((num * 2 ^ (-spacing).toNat : ℕ) : ℚ) / (den * 2 ^ spacing.toNat : ℕ) := by
    have hpower : (2 : ℚ) ^ doublings ((num : ℚ) / den * 2 ^ 149) = 2 ^ spacing * 2 ^ 149 := by
      rw [← zpow_natCast, hdoublings, hscale]
    rw [hpower, two_zpow_eq_div]
    push_cast
    field_simp
  rw [nearestCount, hrounded, ← roundQuotient_eq _ (by positivity)]
  congr 3
  omega

end BinaryFormat

namespace Single

/-- A ratio is narrowed to the nearest single. -/
theorem isNearest_ofRatio (negative : Bool) (num : Nat) {den : Nat} (hden : 0 < den) :
    (ofRatio negative num den).IsNearest
      ((if negative then -1 else 1) * (num / den * 2 ^ 149)) := by
  have hlt : BinaryFormat.single.nearest num den < 2 ^ 31 := by
    rw [BinaryFormat.nearest_single num hden]
    omega
  have hbits : (BinaryFormat.single.nearest num den).toUInt32.toNat
      = BinaryFormat.single.nearest num den :=
    UInt32.toNat_ofNat_of_lt' (hlt.trans (by decide))
  -- The sign is put on at the end, so it is enough to round the magnitude.
  have hpositive : Single.IsNearest ⟨(BinaryFormat.single.nearest num den).toUInt32⟩
      (num / den * 2 ^ 149) := by
    have hhas : Has ⟨(BinaryFormat.single.nearest num den).toUInt32⟩ .positive
        (min (nearestCount (num / den * 2 ^ 149)) (255 * 2 ^ 23)) := by
      constructor
      · rw [sign, if_neg]
        rw [signBit_eq_true_iff, hbits]
        omega
      · rw [toNat_magnitude, hbits, Nat.mod_eq_of_lt hlt, BinaryFormat.nearest_single num hden]
    have hnearest := IsNearest.of_has (by positivity) hhas
    rwa [Sign.apply, Int.cast_one, one_mul] at hnearest
  rw [ofRatio]
  cases negative with
  | false => simpa using hpositive
  | true => simpa using hpositive.neg

/-- A double is narrowed to the nearest single. -/
theorem isNearest_ofDouble {x : Float} {y : ℚ} (h : Double.Holds x y) :
    (ofDouble x).IsNearest (y * 2 ^ 149) := by
  obtain ⟨hfinite, rfl⟩ := Double.holds_iff.mp h
  have hnumber : ¬ 0x7ff0000000000000 < Double.magnitude x := by
    rw [UInt64.not_lt]
    exact UInt64.le_of_lt hfinite
  have hbounded : ¬ Double.isInfinite x = true := by
    rw [Double.isInfinite, beq_iff_eq]
    exact UInt64.ne_of_lt hfinite
  rw [ofDouble, if_neg hnumber, if_neg hbounded]
  have hnearest := isNearest_ofRatio (Double.signBit x)
    (Double.significand x * 2 ^ (Double.exponent x).toNat)
    (Nat.two_pow_pos (-Double.exponent x).toNat)
  -- The ratio that the double is split into is its number, without rounding.
  have hvalue : ((if Double.signBit x then -1 else 1 : ℚ)
      * (((Double.significand x * 2 ^ (Double.exponent x).toNat : ℕ) : ℚ)
        / (2 ^ (-Double.exponent x).toNat : ℕ) * 2 ^ 149)) = Double.toRat x * 2 ^ 149 := by
    have hsign : (((Double.sign x).apply 1 : Int) : ℚ) = if Double.signBit x then -1 else 1 := by
      rw [Double.sign]
      split <;> simp [Sign.apply]
    rw [Double.toRat, hsign, two_zpow_eq_div]
    push_cast
    ring
  rw [hvalue] at hnearest
  exact hnearest

/-- What is nearer to the number below one is narrowed to less than one. -/
theorem ofDouble_lt_one {x : Float} {y : ℚ} {k : ℕ} (h : Double.Within k (8 / 5) x y)
    (hk : k ≤ 2 ^ 20) (hlt : y + k / 2 ^ 52 < 1 - 1 / 2 ^ 25) : ofDouble x < one := by
  obtain ⟨z, hz, hzy⟩ := h.error
  have hlow := (abs_le.mp (Double.abs_le_of_units hzy h.size hk)).1
  have hhigh : z < 1 - 1 / 2 ^ 25 := by linarith [(abs_le.mp hzy).2]
  have hnearest := isNearest_ofDouble hz
  generalize ofDouble x = a at *
  have hone : one.IsNearest (2 ^ 149) := by exact_mod_cast isNearest_units (a := one) rfl
  have hminus : Single.IsNearest ⟨0xc0000000⟩ (-2 ^ 150) := by
    exact_mod_cast isNearest_units (a := ⟨0xc0000000⟩) rfl
  have hle : a ≤ one := hnearest.le hone (by linarith)
  have hfinite : a.isFinite = true :=
    isFinite_of_le_of_le (hminus.le hnearest (by linarith)) hle rfl rfl
  rw [← Single.not_le hle.2.1 hle.1, le_iff_units_le rfl hfinite, not_le]
  refine lt_of_le_of_ne ((le_iff_units_le hfinite rfl).mp hle) fun hunits => ?_
  -- The next lower single would be nearer than one.
  have hbelow := hnearest.abs_sub_le hfinite ⟨0x3f7fffff⟩
  have hone' : (a.units : ℚ) = 2 ^ 149 := by exact_mod_cast hunits
  have hlower : ((Single.mk 0x3f7fffff).units : ℚ) = 2 ^ 149 - 2 ^ 125 := by
    have hlower : (Single.mk 0x3f7fffff).units = 2 ^ 149 - 2 ^ 125 := rfl
    exact_mod_cast hlower
  rw [hone', hlower, abs_of_nonneg (by linarith : (0 : ℚ) ≤ 2 ^ 149 - z * 2 ^ 149)] at hbelow
  rcases abs_cases ((2 : ℚ) ^ 149 - 2 ^ 125 - z * 2 ^ 149) with ⟨habs, -⟩ | ⟨habs, -⟩ <;>
    rw [habs] at hbelow <;> linarith

/-! ### Widening -/

/-- The number that a finite single is. -/
def toRat (a : Single) : ℚ := a.units / 2 ^ 149

/-- Finite singles are ordered as the numbers that they are. -/
theorem toRat_le_toRat {a b : Single} (ha : a.isFinite = true) (hb : b.isFinite = true)
    (h : a ≤ b) : a.toRat ≤ b.toRat := by
  have hunits := (le_iff_units_le ha hb).mp h
  rw [toRat, toRat]
  gcongr

/-- A single without a minus sign is its significand, scaled by its exponent. -/
theorem toRat_eq {a : Single} (h : a.signBit = false) :
    a.toRat = a.significand * 2 ^ a.exponent := by
  rw [toRat, units_eq, sign, h, zpow_add₀ two_ne_zero, zpow_ofNat, ← mul_assoc, ← mul_assoc,
    mul_div_cancel_right₀ _ (by positivity)]
  simp [Sign.apply]

/-- The last digit of a single that is not much above one counts little. -/
theorem two_zpow_exponent_le {a : Single} (h : a.significand * (2 : ℚ) ^ a.exponent ≤ 8 / 5) :
    (2 : ℚ) ^ a.exponent ≤ 2 := by
  rcases exponent_eq_or_two_pow_le a with hexponent | hfull
  · rw [hexponent]
    norm_num
  · have hone : (1 : ℚ) ≤ a.significand := by exact_mod_cast Nat.one_le_two_pow.trans hfull
    have hpos : (0 : ℚ) < 2 ^ a.exponent := by positivity
    have hle : 1 * (2 : ℚ) ^ a.exponent ≤ a.significand * 2 ^ a.exponent := by gcongr
    linarith

/-- A positive single that is not much above one keeps its number but for two units. -/
theorem within_toDouble {a : Single} (hfinite : a.isFinite = true) (hsign : a.signBit = false)
    (h : a.toRat ≤ 8 / 5) : Double.Within 2 (8 / 5) a.toDouble a.toRat := by
  have hsignificand : a.significand.toUInt64.toNat = a.significand :=
    UInt64.toNat_ofNat_of_lt' ((significand_lt a).trans (by decide))
  have htoDouble : a.toDouble = a.significand.toUInt64.toFloat * Double.twoPow a.exponent := by
    rw [toDouble, if_pos hfinite, hsign]
    rfl
  have hfield := isFinite_iff.mp hfinite
  have hpower : Double.Holds (Double.twoPow a.exponent) (2 ^ a.exponent) := by
    apply Double.holds_twoPow <;> unfold exponent <;> omega
  have hpos : (0 : ℚ) < 2 ^ a.exponent := by positivity
  have hsize : (0 : ℚ) ≤ a.significand := Nat.cast_nonneg _
  rw [toRat_eq hsign] at h ⊢
  have hscale := two_zpow_exponent_le h
  -- The significand fits into a double, and the power of two is one: the bound is not sharp, but
  -- it is enough.
  obtain ⟨z, hz, hslack⟩ := Double.holds_toFloat a.significand.toUInt64
  have herror := hslack.trans (Double.slack_le _)
  rw [hsignificand, abs_of_nonneg hsize] at herror
  rw [htoDouble]
  refine Double.within_of_rounds (k := 1) (Double.unpacked_mul _ _)
    (StandsFor.rounds_mul hz hpower) ?_ (by norm_num) (by rwa [abs_of_nonneg (by positivity)])
    le_rfl
  rw [← sub_mul, abs_mul, abs_of_pos hpos]
  calc |z - a.significand| * 2 ^ a.exponent
      ≤ (a.significand / 2 ^ 53 + 1 / 2 ^ 60) * 2 ^ a.exponent := by gcongr
    _ = a.significand * 2 ^ a.exponent / 2 ^ 53 + 2 ^ a.exponent / 2 ^ 60 := by ring
    _ ≤ 8 / 5 / 2 ^ 53 + 2 / 2 ^ 60 := by gcongr
    _ ≤ (1 : ℕ) / 2 ^ 52 := by norm_num

end Single

end Battlemap
