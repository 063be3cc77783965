import Battlemap.Proofs.Number.Order
import Battlemap.Proofs.Number.Pattern

/-!
# `Battlemap.Proofs.Number.Arithmetic`: sums and quotients of singles

A finite single is a whole number of units, `Single.units`, where the unit
is the least positive single. The hardware's sum of two finite singles is
the single nearest to the sum of their units (`isNearest_add`), and their
quotient is the one nearest to the quotient (`isNearest_div`). Since the
nearest single does not fall when the exact value rises, neither do sums
(`add_le_add`) and quotients by a positive number (`div_le_div`).

Where a mantissa is rounded follows from the place of its leading digit
(`doublings_eq_targetExponent`), and so does the count of the result
(`has_roundWithAccuracy`).
-/

set_option autoImplicit false

namespace Battlemap

open Float.Model Float.Model.UnpackedFloat

/-! ### Rounding -/

namespace Single

/-- A single has 24 digits, the last of which counts at least `2 ^ -149`. -/
theorem targetExponent_eq (t : Int) : Format.binary32.targetExponent t = max (t - 24) (-149) := rfl

/-- The exponent that a mantissa is shifted to is the one of the nearest
magnitudes. -/
theorem doublings_eq_targetExponent {em : ExtendedMantissa} {x : ℚ} (hx : Approximates em x)
    {e : Int} (he : e ≤ Format.binary32.targetExponent (totalExponent em.mantissa e)) :
    (doublings (x * 2 ^ (e + 149)) : Int) =
      Format.binary32.targetExponent (totalExponent em.mantissa e) + 149 := by
  have hfloor := hx.floor
  have hscale : (0 : ℚ) < 2 ^ (e + 149) := by positivity
  rw [targetExponent_eq, totalExponent] at he ⊢
  rcases Nat.eq_zero_or_pos em.mantissa with hzero | hpos
  · -- There is no whole part, and the exponent is the least one.
    rw [hzero, Nat.log2_zero] at he ⊢
    rw [hzero, Nat.floor_eq_zero] at hfloor
    have hunit : x * 2 ^ (e + 149) < 1 :=
      mul_lt_one_of_nonneg_of_lt_one_left hx.nonneg hfloor
        (zpow_le_one_of_nonpos₀ (by norm_num) (by omega))
    rw [doublings, Nat.floor_eq_zero.mpr hunit]
    simp
    omega
  · have hlow : ((2 : ℚ) ^ em.mantissa.log2 : ℚ) ≤ x := by
      have hmantissa : (em.mantissa : ℚ) ≤ x := hfloor ▸ Nat.floor_le hx.nonneg
      have hpower : ((2 : ℚ) ^ em.mantissa.log2 : ℚ) ≤ em.mantissa := by
        exact_mod_cast Nat.log2_self_le hpos.ne'
      exact hpower.trans hmantissa
    have hhigh : x < (2 : ℚ) ^ (em.mantissa.log2 + 1) := by
      have hmantissa : x < em.mantissa + 1 := hfloor ▸ Nat.lt_floor_add_one x
      exact hmantissa.trans_le (by exact_mod_cast Nat.lt_log2_self)
    have hscaled (n : Nat) : (2 : ℚ) ^ ((n : Int) + (e + 149)) = 2 ^ n * 2 ^ (e + 149) := by
      rw [zpow_add₀ two_ne_zero, zpow_natCast]
    rw [doublings_eq_of_binade (k := em.mantissa.log2 + (e + 149))]
    · omega
    · rw [hscaled]
      gcongr
    · have hnext : (em.mantissa.log2 : Int) + (e + 149) + 1
          = (em.mantissa.log2 + 1 : Nat) + (e + 149) := by
        omega
      rw [hnext, hscaled]
      gcongr

/-- A number that is shifted, rounded and packed becomes the nearest
single. -/
theorem has_roundWithAccuracy (s : Sign) {m : Nat} {e : Int} {acc : Accuracy} {x : ℚ}
    (hx : Approximates (.ofMantissaAndAccuracy m acc) x)
    (he : e ≤ Format.binary32.targetExponent (totalExponent m e)) :
    (ofUnpacked (roundWithAccuracy Format.binary32 s m e acc)).Has s
      (min (nearestCount (x * 2 ^ (e + 149))) (255 * 2 ^ 23)) := by
  have hdoublings :=
    doublings_eq_targetExponent hx ((mantissa_ofMantissaAndAccuracy m acc).symm ▸ he)
  rw [mantissa_ofMantissaAndAccuracy] at hdoublings
  generalize ht : Format.binary32.targetExponent (totalExponent m e) = t at *
  have hleast : -149 ≤ t := by rw [← ht, targetExponent_eq]; omega
  set y := x * 2 ^ (e + 149) with hy
  have hynonneg : 0 ≤ y := mul_nonneg hx.nonneg (by positivity)
  have hshifted : x / 2 ^ (t - e).toNat = y / 2 ^ doublings y := by
    rw [← zpow_natCast, ← zpow_natCast, hdoublings, Int.toNat_of_nonneg (by omega), hy,
      mul_div_assoc, ← zpow_sub₀ two_ne_zero, div_eq_mul_inv, ← zpow_neg]
    congr 2
    omega
  have hrounded : (ExtendedMantissa.ofMantissaAndAccuracy m acc >>> (t - e).toNat).roundedMantissa
      = roundEven (y / 2 ^ doublings y) := by
    rw [(hx.shiftRight _).roundedMantissa, hshifted]
  have hcount : nearestCount y = (t + 149).toNat * 2 ^ 23 + roundEven (y / 2 ^ doublings y) := by
    rw [nearestCount, show doublings y = (t + 149).toNat by omega]
  have hle : roundEven (y / 2 ^ doublings y) ≤ 2 ^ 24 :=
    roundEven_le_of_lt (by positivity) (by exact_mod_cast lt_two_pow_doublings hynonneg)
  have hnormal : t = -149 ∨ 2 ^ 23 ≤ roundEven (y / 2 ^ doublings y) := by
    by_cases hzero : doublings y = 0
    · exact .inl (by omega)
    · exact .inr (le_roundEven (by exact_mod_cast two_pow_le_of_doublings hzero))
  -- What remains is to pack the rounded mantissa.
  obtain ⟨m', e', hagain, hm', he', hnormal', -, hcount'⟩ :=
    exists_shiftToTargetExponent Format.binary32 hle hleast hnormal
  rw [show Format.binary32.minExponent = -149 from rfl, sub_neg_eq_add, sub_neg_eq_add] at hcount'
  rw [hcount, ← hcount', roundWithAccuracy, shiftToTargetExponent, ht, shiftToExponent]
  dsimp only
  rw [hrounded, Int.toNat_of_nonneg (by omega), add_sub_cancel, hagain]
  dsimp only
  split
  case isTrue hzero =>
    -- Nothing is rounded to zero but what is least.
    obtain rfl : m' = 0 := hzero
    obtain rfl : e' = -149 := hnormal'.resolve_right (by norm_num)
    exact has_ofUnpacked_zero s
  case isFalse hne =>
    exact has_ofUnpacked_finite _ hm' he' hnormal'

/-- The number of units that a finite single is. -/
def units (a : Single) : Int := a.sign.apply (a.significand * 2 ^ (a.exponentField - 1) : Nat)

/-- A single is the one nearest to a number of units. -/
structure IsNearest (a : Single) (y : ℚ) : Prop where
  isNaN : a.isNaN = false
  rank : a.rank = nearestRank y

/-- The rank of a single is its magnitude, with its sign. -/
theorem rank_eq_apply_sign (a : Single) : a.rank = a.sign.apply a.magnitude.toNat := by
  unfold rank sign
  split <;> rfl

/-- A single with the magnitude nearest to a number of units, and the right sign, is the nearest
one. -/
theorem IsNearest.of_has {a : Single} {s : Sign} {y : ℚ} (hy : 0 ≤ y)
    (h : a.Has s (min (nearestCount y) (255 * 2 ^ 23))) :
    a.IsNearest (s.apply 1 * y) where
  isNaN := isNaN_eq_false_iff.mpr (h.magnitude.le.trans (min_le_right _ _))
  rank := by
    rw [rank_eq_apply_sign, h.sign, h.magnitude, ← nearestRank_of_nonneg hy]
    cases s with
    | positive => simp [Sign.apply]
    | negative => simp [Sign.apply, nearestRank_neg]

/-- A finite single is nearest to its own units. -/
theorem isNearest_units {a : Single} (h : a.isFinite = true) : a.IsNearest a.units := by
  have hfinite := isFinite_iff.mp h
  have hcount : nearestCount (a.significand * 2 ^ (a.exponentField - 1) : Nat)
      = (a.exponentField - 1) * 2 ^ 23 + a.significand := by
    rw [Nat.cast_mul, Nat.cast_pow, Nat.cast_two]
    refine nearestCount_mul_two_pow (significand_lt a) ?_
    by_cases hfield : a.exponentField - 1 = 0
    · exact .inl hfield
    · exact .inr (two_pow_le_significand hfield)
  have hlt := significand_lt a
  rw [units, apply_eq_mul]
  refine .of_has (Nat.cast_nonneg _) ⟨rfl, ?_⟩
  rw [hcount, toNat_magnitude_eq, Nat.min_eq_left]
  rw [← toNat_magnitude_eq, toNat_magnitude]
  rw [exponentField_eq] at hfinite
  omega

/-- Two singles of one rank are one number of units. -/
theorem units_eq_of_rank_eq {a b : Single} (h : a.rank = b.rank) : a.units = b.units := by
  rw [rank_eq_apply_sign, rank_eq_apply_sign] at h
  have hmagnitude : a.magnitude.toNat = b.magnitude.toNat := by
    revert h
    cases a.sign <;> cases b.sign <;> simp only [Sign.apply] <;> omega
  by_cases hzero : a.magnitude.toNat = 0
  · -- Zero has two signs.
    have hunits (c : Single) (hc : c.magnitude.toNat = 0) : c.units = 0 := by
      rw [toNat_magnitude_eq] at hc
      rw [units, show c.significand = 0 by omega, zero_mul]
      cases c.sign <;> rfl
    rw [hunits a hzero, hunits b (hmagnitude.symm.trans hzero)]
  · have hsign : a.sign = b.sign := by
      revert h
      cases a.sign <;> cases b.sign <;> intro h <;> dsimp only [Sign.apply] at h <;>
        first | rfl | (exfalso; omega)
    rw [ext_of_has ⟨hsign, hmagnitude⟩ ⟨rfl, rfl⟩]

/-- Finite singles are ordered as their units are. -/
theorem le_iff_units_le {a b : Single} (ha : a.isFinite = true) (hb : b.isFinite = true) :
    a ≤ b ↔ a.units ≤ b.units := by
  have hrank : a ≤ b ↔ a.rank ≤ b.rank :=
    ⟨fun h => h.2.2, fun h => ⟨isNaN_of_isFinite ha, isNaN_of_isFinite hb, h⟩⟩
  rw [hrank]
  constructor
  · intro h
    by_contra hlt
    have hback : b.rank ≤ a.rank := by
      rw [(isNearest_units ha).rank, (isNearest_units hb).rank]
      exact nearestRank_mono (by exact_mod_cast (not_le.mp hlt).le)
    exact hlt (units_eq_of_rank_eq (le_antisymm h hback)).le
  · intro h
    rw [(isNearest_units ha).rank, (isNearest_units hb).rank]
    exact nearestRank_mono (by exact_mod_cast h)

/-- Finite singles are ordered as their numbers of units. -/
theorem lt_iff_units_lt {a b : Single} (ha : a.isFinite = true) (hb : b.isFinite = true) :
    a < b ↔ a.units < b.units := by
  rw [← Single.not_le (isNaN_of_isFinite hb) (isNaN_of_isFinite ha), le_iff_units_le hb ha, not_le]

/-! ### Operations -/

/-- Rounding gives the single nearest to what is rounded. -/
theorem isNearest_round (s : Sign) {m : Nat} (hm : m ≠ 0) (e : Int) :
    (ofUnpacked (UnpackedFloat.round Format.binary32 s m e)).IsNearest
      ((s.apply 1 : Int) * (m * 2 ^ (e + 149))) := by
  obtain ⟨m', e', hround, he, hvalue⟩ := exists_round_eq Format.binary32 s hm e
  have hunits : (m' : ℚ) * 2 ^ (e' + 149) = m * 2 ^ (e + 149) := by
    rw [zpow_add₀ two_ne_zero, zpow_add₀ two_ne_zero, ← mul_assoc, hvalue, mul_assoc]
  rw [hround, ← hunits]
  exact .of_has (by positivity) (has_roundWithAccuracy s (approximates_exact _) he)

/-- A zero of either sign is the single nearest to no units. -/
theorem isNearest_zero (s : Sign) : (ofUnpacked (.zero s)).IsNearest 0 := by
  have h := IsNearest.of_has (a := ofUnpacked (.zero s)) (s := s) (y := 0) le_rfl
    (by rw [nearestCount_zero]; exact has_ofUnpacked_zero s)
  rwa [mul_zero] at h

/-- Normalizing gives the single nearest to the number, which may be zero or negative. -/
theorem isNearest_normalize (m e : Int) :
    (ofUnpacked (UnpackedFloat.normalize Format.binary32 m e .positive)).IsNearest
      (m * 2 ^ (e + 149)) := by
  by_cases hm : m = 0
  · rw [hm, Int.cast_zero, zero_mul]
    exact isNearest_zero .positive
  · obtain ⟨s, hnormalize, hs⟩ := exists_normalize_eq Format.binary32 hm e .positive
    have hvalue : (m : ℚ) = (s.apply 1 : Int) * m.natAbs := by rw [← apply_eq_mul, hs]
    rw [hnormalize, hvalue, mul_assoc]
    exact isNearest_round s (Int.natAbs_ne_zero.mpr hm) e

/-- A finite single is not changed by unpacking and packing it. -/
theorem ofUnpacked_unpacked {a : Single} (h : a.isFinite = true) : ofUnpacked a.unpacked = a := by
  rw [unpacked_of_isFinite h, ← unpack_of_isFinite h, ofUnpacked_unpack h]

/-- Only zeros are no units. -/
theorem units_eq_zero_iff {a : Single} : a.units = 0 ↔ a.significand = 0 := by
  rw [units]
  cases a.sign <;> simp [Sign.apply]

/-- The units are the significand, moved by the exponent. -/
theorem units_eq (a : Single) :
    (a.units : ℚ) = (a.sign.apply 1 : Int) * (a.significand * 2 ^ (a.exponent + 149)) := by
  rw [units, apply_eq_mul, show a.exponent + 149 = (a.exponentField - 1 : Nat) by
    unfold exponent; omega, zpow_natCast]
  push_cast
  rfl

/-- A mantissa that is moved to a lower exponent stands for as many units. -/
theorem units_eq_shiftLeft {a : Single} {low : Int} (h : low ≤ a.exponent) :
    ((a.sign.apply (a.significand <<< (a.exponent - low).toNat : Nat) : Int) : ℚ)
      * 2 ^ (low + 149) = a.units := by
  rw [units_eq, ← apply_shiftLeft_mul _ _ (Int.add_le_add_right h 149), add_sub_add_right_eq_sub]

/-- The sum of two finite singles is the single nearest to the exact sum. -/
theorem isNearest_add {a b : Single} (ha : a.isFinite = true) (hb : b.isFinite = true) :
    (a + b).IsNearest (a.units + b.units) := by
  rw [add_eq]
  by_cases hza : a.significand = 0
  · by_cases hzb : b.significand = 0
    · rw [units_eq_zero_iff.mpr hza, units_eq_zero_iff.mpr hzb, unpacked_of_isFinite ha,
        unpacked_of_isFinite hb, dif_pos hza, dif_pos hzb, UnpackedFloat.add]
      simp only [Int.cast_zero, add_zero]
      split <;> exact isNearest_zero _
    · rw [units_eq_zero_iff.mpr hza, Int.cast_zero, zero_add]
      have hsum : UnpackedFloat.add Format.binary32 a.unpacked b.unpacked = b.unpacked := by
        rw [unpacked_of_isFinite ha, unpacked_of_isFinite hb, dif_pos hza, dif_neg hzb]
        rfl
      rw [hsum, ofUnpacked_unpacked hb]
      exact isNearest_units hb
  · by_cases hzb : b.significand = 0
    · rw [units_eq_zero_iff.mpr hzb, Int.cast_zero, add_zero]
      have hsum : UnpackedFloat.add Format.binary32 a.unpacked b.unpacked = a.unpacked := by
        rw [unpacked_of_isFinite ha, unpacked_of_isFinite hb, dif_neg hza, dif_pos hzb]
        rfl
      rw [hsum, ofUnpacked_unpacked ha]
      exact isNearest_units ha
    · -- Both mantissas are moved to the lower exponent and added up.
      rw [unpacked_of_isFinite ha, unpacked_of_isFinite hb, dif_neg hza, dif_neg hzb,
        UnpackedFloat.add]
      dsimp only [decreaseExponent]
      rw [← units_eq_shiftLeft (min_le_left a.exponent b.exponent),
        ← units_eq_shiftLeft (min_le_right a.exponent b.exponent), ← add_mul, ← Int.cast_add]
      exact isNearest_normalize _ _

/-- The division of mantissas leaves enough digits to round. -/
theorem exists_approximates_divCore {m₁ m₂ : Nat} (h₁ : m₁ ≠ 0) (h₂ : m₂ ≠ 0) (e₁ e₂ : Int) :
    let d := divCore Format.binary32 m₁ e₁ m₂ e₂
    ∃ x : ℚ, Approximates (.ofMantissaAndAccuracy d.1 d.2.2) x ∧
      d.2.1 ≤ Format.binary32.targetExponent (totalExponent d.1 d.2.1) ∧
      x * 2 ^ d.2.1 = m₁ * 2 ^ e₁ / (m₂ * 2 ^ e₂) := by
  dsimp only [divCore]
  generalize ht : min (e₁ - e₂) _ = t
  rw [targetExponent_eq, totalExponent, totalExponent] at ht
  generalize hk : (e₁ - e₂ - t).toNat = k
  refine ⟨_, approximates_quotient _ (Nat.pos_of_ne_zero h₂), ?_, ?_⟩
  · rw [targetExponent_eq, totalExponent]
    by_cases hleast : t ≤ -149
    · omega
    · -- There are at least as many digits as a mantissa has.
      have hfew : 2 ^ 23 ≤ (m₁ <<< k) / m₂ := by
        rw [Nat.le_div_iff_mul_le (Nat.pos_of_ne_zero h₂), Nat.shiftLeft_eq]
        calc 2 ^ 23 * m₂ ≤ 2 ^ 23 * 2 ^ (m₂.log2 + 1) := by gcongr; exact Nat.lt_log2_self.le
          _ = 2 ^ (m₂.log2 + 24) := by rw [← pow_add]; congr 1; omega
          _ ≤ 2 ^ (m₁.log2 + k) := Nat.pow_le_pow_right two_pos (by omega)
          _ = 2 ^ m₁.log2 * 2 ^ k := pow_add 2 _ _
          _ ≤ m₁ * 2 ^ k := by gcongr; exact Nat.log2_self_le h₁
      have hlog := (Nat.le_log2 (by omega)).mpr hfew
      omega
  · have hpos : (m₂ : ℚ) ≠ 0 := by exact_mod_cast h₂
    rw [Nat.shiftLeft_eq, Nat.cast_mul, Nat.cast_pow, Nat.cast_two, div_mul_eq_mul_div, mul_assoc,
      ← zpow_natCast, ← zpow_add₀ two_ne_zero, show (k : Int) + t = e₁ - e₂ by omega,
      zpow_sub₀ two_ne_zero]
    field_simp

/-- The quotient of two finite singles is the single nearest to the exact
quotient, which is counted in units, too. -/
theorem isNearest_div {a b : Single} (ha : a.isFinite = true) (hb : b.isFinite = true)
    (hne : b.units ≠ 0) : (a / b).IsNearest (a.units / b.units * 2 ^ 149) := by
  have hzb : b.significand ≠ 0 := fun hzero => hne (units_eq_zero_iff.mpr hzero)
  rw [div_eq, unpacked_of_isFinite ha, unpacked_of_isFinite hb, dif_neg hzb]
  by_cases hza : a.significand = 0
  · rw [units_eq_zero_iff.mpr hza, dif_pos hza, Int.cast_zero, zero_div, zero_mul]
    exact isNearest_zero _
  · rw [dif_neg hza, UnpackedFloat.div]
    -- The quotient of the significands, cut off with the two bits that rounding needs.
    obtain ⟨x, hx, he, hvalue⟩ := exists_approximates_divCore hza hzb a.exponent b.exponent
    have hsigns : ((a.sign.apply 1 : Int) : ℚ) / (b.sign.apply 1 : Int)
        = ((a.sign / b.sign).apply 1 : Int) := by
      cases a.sign <;> cases b.sign <;> simp [Sign.apply] <;> rfl
    have hscale (e : Int) : (2 : ℚ) ^ (e + 149) = 2 ^ e * 2 ^ 149 := by
      rw [zpow_add₀ two_ne_zero, zpow_ofNat]
    generalize divCore Format.binary32 _ _ _ _ = d at *
    have hquotient : (a.units : ℚ) / b.units * 2 ^ 149
        = ((a.sign / b.sign).apply 1 : Int) * (x * 2 ^ (d.2.1 + 149)) := by
      rw [units_eq, units_eq, mul_div_mul_comm, hsigns, hscale, hscale, hscale, ← mul_assoc x,
        hvalue]
      field_simp
    rw [hquotient]
    refine .of_has ?_ (has_roundWithAccuracy _ hx he)
    exact mul_nonneg hx.nonneg (by positivity)

/-! ### Order -/

/-- A sum does not fall when its terms rise. -/
protected theorem add_le_add {a b c d : Single} (ha : a.isFinite = true) (hb : b.isFinite = true)
    (hc : c.isFinite = true) (hd : d.isFinite = true) (hab : a ≤ b) (hcd : c ≤ d) :
    a + c ≤ b + d := by
  obtain ⟨hleft, hrankleft⟩ := isNearest_add ha hc
  obtain ⟨hright, hrankright⟩ := isNearest_add hb hd
  refine ⟨hleft, hright, ?_⟩
  rw [hrankleft, hrankright]
  have h := Int.add_le_add ((le_iff_units_le ha hb).mp hab) ((le_iff_units_le hc hd).mp hcd)
  exact nearestRank_mono (by exact_mod_cast h)

/-- A quotient by a positive number does not fall when its dividend rises. -/
protected theorem div_le_div {a b n : Single} (ha : a.isFinite = true) (hb : b.isFinite = true)
    (hn : n.isFinite = true) (hpos : 0 < n.units) (hab : a ≤ b) : a / n ≤ b / n := by
  obtain ⟨hleft, hrankleft⟩ := isNearest_div ha hn hpos.ne'
  obtain ⟨hright, hrankright⟩ := isNearest_div hb hn hpos.ne'
  refine ⟨hleft, hright, ?_⟩
  rw [hrankleft, hrankright]
  have hunits : (a.units : ℚ) ≤ b.units := by exact_mod_cast (le_iff_units_le ha hb).mp hab
  have hdivisor : (0 : ℚ) < n.units := by exact_mod_cast hpos
  exact nearestRank_mono (by gcongr)

/-! ### What is not finite stays so -/

/-- A sum with an infinity or a NaN is not finite. -/
theorem isFinite_add_eq_false {f g : UnpackedFloat} (h : f.isFinite = false ∨ g.isFinite = false) :
    (UnpackedFloat.add Format.binary32 f g).isFinite = false := by
  cases f <;> cases g <;> simp_all [UnpackedFloat.isFinite, UnpackedFloat.add]
  case infinity.infinity s t => by_cases hst : (s == t) = true <;> simp [hst]

/-- The terms of a finite sum are finite. -/
theorem isFinite_of_isFinite_add {a b : Single} (h : (a + b).isFinite = true) :
    a.isFinite = true ∧ b.isFinite = true := by
  rw [add_eq] at h
  by_contra hnot
  have hterm : a.unpacked.isFinite = false ∨ b.unpacked.isFinite = false := by
    rcases Bool.eq_false_or_eq_true a.isFinite with ha | ha
    · exact .inr (isFinite_unpacked_eq_false (Bool.eq_false_iff.mpr fun hb => hnot ⟨ha, hb⟩))
    · exact .inl (isFinite_unpacked_eq_false ha)
  rw [isFinite_ofUnpacked_eq_false (isFinite_add_eq_false hterm)] at h
  cases h

/-- The dividend of a finite quotient by a finite number is finite. -/
theorem isFinite_of_isFinite_div {a b : Single} (h : (a / b).isFinite = true)
    (hb : b.isFinite = true) : a.isFinite = true := by
  rw [div_eq, unpacked_of_isFinite hb] at h
  by_contra hnot
  have hdividend := isFinite_unpacked_eq_false (Bool.eq_false_iff.mpr hnot)
  have hquotient : (UnpackedFloat.div Format.binary32 a.unpacked
      (if hzero : b.significand = 0 then .zero b.sign
        else .finite b.sign b.significand b.exponent (Nat.pos_of_ne_zero hzero))).isFinite
      = false := by
    revert hdividend
    split <;> cases a.unpacked <;> simp [UnpackedFloat.isFinite, UnpackedFloat.div]
  rw [isFinite_ofUnpacked_eq_false hquotient] at h
  cases h

end Single

end Battlemap
