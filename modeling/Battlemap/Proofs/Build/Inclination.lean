import Battlemap.Build.Config
import Battlemap.Proofs.Number.Cosine

/-!
# `Battlemap.Proofs.Build.Inclination`: from which inclination on surfaces count

A surface counts as floor or ceiling if its normal is steeper than `BuildConfig.minNormalY`, the
cosine of the inclination that is asked for. The normal of a horizontal surface is one, which
is above the cosine unless the inclination is so small that its cosine is rounded to one. Up to
`flatInclination`, about 0.014 degrees, it is (`minNormalY_lt_one_iff`).
-/

set_option autoImplicit false

namespace Battlemap

namespace Single

variable {a b : Single}

/-- Radians rise with degrees. -/
theorem toRadians_mono (ha : a.isFinite = true) (hb : b.isFinite = true) (h : a ≤ b) :
    a.toRadians ≤ b.toRadians := by
  have hunits : (a.units : ℚ) ≤ b.units := by exact_mod_cast (le_iff_units_le ha hb).mp h
  have hdegree : (0 : ℚ) ≤ (Single.mk 0x3c8efa35).units := by
    exact_mod_cast (by decide : 0 ≤ (Single.mk 0x3c8efa35).units)
  refine (isNearest_mul ha rfl).le (isNearest_mul hb rfl) ?_
  gcongr

/-- The cosine of NaN is NaN. -/
theorem cos_toRadians_of_isNaN (h : a.isNaN = true) : a.toRadians.cos = nan := by
  have hinfinite : a.unpacked.isFinite = false := by
    refine isFinite_unpacked_eq_false (Bool.eq_false_iff.mpr fun hfinite => ?_)
    rw [isNaN_of_isFinite hfinite] at h
    cases h
  have hradians : a.toRadians.isFinite = false := by
    rw [toRadians, mul_eq]
    refine isFinite_ofUnpacked_eq_false ?_
    cases hunpacked : a.unpacked with
    | zero s => rw [hunpacked] at hinfinite; cases hinfinite
    | finite s m e hpos => rw [hunpacked] at hinfinite; cases hinfinite
    | infinity s => rfl
    | notANumber => rfl
  rw [cos, hradians]
  rfl

end Single

namespace BuildConfig

open Single (zero one)

/-- The greatest inclination, in degrees, whose cosine is rounded to one. -/
def flatInclination : Single := ⟨0x3c652ee1⟩

/-- Up to a right angle, surfaces that are horizontal count above `flatInclination` only. -/
theorem cos_toRadians_lt_one_iff {a : Single} (hlow : zero ≤ a) (hhigh : a ≤ rightAngle) :
    a.toRadians.cos < one ↔ flatInclination < a := by
  have hfinite : a.isFinite = true := Single.isFinite_of_le_of_le hlow hhigh rfl rfl
  have hzero : zero.toRadians = zero := by decide
  have hright : rightAngle.toRadians = ⟨0x3fc90fdb⟩ := by decide
  -- In radians the limit is the last angle with a cosine of one, and the next single is the first
  -- above it.
  have hflat : flatInclination.toRadians = ⟨0x39800000⟩ := by decide
  have hnext : (Single.mk 0x3c652ee2).toRadians = ⟨0x39800001⟩ := by decide
  have hlow' := Single.toRadians_mono rfl hfinite hlow
  have hhigh' := Single.toRadians_mono hfinite rfl hhigh
  rw [hzero] at hlow'
  rw [hright] at hhigh'
  rw [Single.cos_lt_one_iff hlow' hhigh']
  constructor
  · intro hlt
    rw [← Single.not_le hlow.2.1 rfl]
    intro hle
    have hle' := Single.toRadians_mono hfinite rfl hle
    rw [hflat] at hle'
    exact (Single.not_le hlow'.2.1 rfl).mpr hlt hle'
  · intro hlt
    have hle := Single.toRadians_mono (a := ⟨0x3c652ee2⟩) rfl hfinite ⟨rfl, hlt.2.1, hlt.2.2⟩
    rw [hnext] at hle
    exact ⟨rfl, hle.2.1, hle.2.2⟩

/-- Horizontal surfaces count exactly if the inclination that is asked for is above
`flatInclination`, be it a right angle, more than that, or NaN. -/
theorem minNormalY_lt_one_iff (c : BuildConfig) :
    c.minNormalY < one ↔ flatInclination < c.maxInclination := by
  rw [minNormalY, Single.clamp]
  generalize c.maxInclination = a
  have hzero : zero.toRadians.cos = one := by decide
  split
  case isTrue hbelow =>
    -- Below zero the inclination is zero.
    rw [hzero]
    refine iff_of_false (by decide) fun hlt => ?_
    exact absurd (hlt.2.2.trans hbelow.2.2) (by decide)
  case isFalse hlow =>
    split
    case isTrue habove =>
      refine iff_of_true ?_ ⟨rfl, habove.2.1, Int.lt_trans (by decide) habove.2.2⟩
      exact (cos_toRadians_lt_one_iff (by decide) (by decide)).mpr (by decide)
    case isFalse hhigh =>
      cases hnumber : a.isNaN with
      | true =>
        rw [Single.cos_toRadians_of_isNaN hnumber]
        refine iff_of_false (by decide) fun hlt => ?_
        exact absurd (hlt.2.1.symm.trans hnumber) Bool.false_ne_true
      | false =>
        exact cos_toRadians_lt_one_iff
          (Decidable.not_not.mp (mt (Single.not_le rfl hnumber).mp hlow))
          (Decidable.not_not.mp (mt (Single.not_le hnumber rfl).mp hhigh))

end BuildConfig

end Battlemap
