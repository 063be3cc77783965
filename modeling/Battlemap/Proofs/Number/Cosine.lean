import Battlemap.Number.Trigonometry
import Battlemap.Proofs.Number.Conversion

/-!
# `Battlemap.Proofs.Number.Cosine`: where the cosine is below one

Close to one the singles are `2 ^ -24` apart, so the cosine of a small angle is rounded to one,
and it is not obvious from where on it is less. The polynomials are evaluated with errors of a
few units of `2 ^ -52` (`within_cosPolynomial`, `within_sinPolynomial`). This is enough to
tell: up to a quarter turn the cosine is below one exactly above the angle `2 ^ -12`
(`Single.cos_lt_one_iff`).
-/

set_option autoImplicit false

namespace Battlemap

namespace Trigonometry

open Double

/-! ### The polynomials -/

/-- What `cosPolynomial` evaluates, without rounding. -/
def cosine (s : ℚ) : ℚ :=
  1 + s * (-0x1ffffffd0c621c / 2 ^ 54) + s * s * (0x155553e1068f19 / 2 ^ 57)
    + s * s * s * (-0x16c087e89a359d / 2 ^ 62 + s * (0x199343027bf8c3 / 2 ^ 68))

/-- What `sinPolynomial` evaluates, without rounding. -/
def sine (x s : ℚ) : ℚ :=
  x + x * s * (-0x1555545995a603 / 2 ^ 55)
    + x * s * s * (0x11107605230bc4 / 2 ^ 59 + s * (-0x1994eb3774cf24 / 2 ^ 65))

/-- Up to an eighth of a turn the cosine has an error of 18 units. -/
theorem within_cosPolynomial {square : Float} {s : ℚ} (h : Holds square s) (hs : |s| ≤ 5 / 8) :
    Within 18 (8 / 5) (cosPolynomial square) (cosine s) := by
  have hone : Holds (Float.ofBits 0x3ff0000000000000) 1 := by
    have hone := holds_positive (x := Float.ofBits 0x3ff0000000000000) (m := 2 ^ 52) (n := 52)
      (by decide) rfl rfl rfl
    rwa [Nat.cast_pow, Nat.cast_two, div_self (by positivity)] at hone
  have hfirst : Holds (Float.ofBits 0xbfdffffffd0c621c) (-0x1ffffffd0c621c / 2 ^ 54) :=
    mod_cast holds_negative (m := 0x1ffffffd0c621c) (by decide) rfl rfl rfl
  have hsecond : Holds (Float.ofBits 0x3fa55553e1068f19) (0x155553e1068f19 / 2 ^ 57) :=
    mod_cast holds_positive (m := 0x155553e1068f19) (by decide) rfl rfl rfl
  have hthird : Holds (Float.ofBits 0xbf56c087e89a359d) (-0x16c087e89a359d / 2 ^ 62) :=
    mod_cast holds_negative (m := 0x16c087e89a359d) (by decide) rfl rfl rfl
  have hfourth : Holds (Float.ofBits 0x3ef99343027bf8c3) (0x199343027bf8c3 / 2 ^ 68) :=
    mod_cast holds_positive (m := 0x199343027bf8c3) (by decide) rfl rfl rfl
  have hfirst' := hfirst.within (c := 1 / 2) (by norm_num [abs_le])
  have hsecond' := hsecond.within (c := 1 / 20) (by norm_num [abs_le])
  have hthird' := hthird.within (c := 1 / 100) (by norm_num [abs_le])
  have hfourth' := hfourth.within (c := 1 / 100) (by norm_num [abs_le])
  -- The operations from the inner to the outer ones, each with its error and its size.
  have hself := h.within hs
  have hsquare := hself.mul hself (by norm_num) (by norm_num) (by norm_num)
  have hcube := hsquare.mul hself (by norm_num) (by norm_num) (by norm_num)
  have hlow := (hone.within abs_one.le).add
    (hself.mul hfirst' (by norm_num) (by norm_num) (by norm_num)) (by norm_num) (by norm_num)
  have hmiddle := hlow.add
    (hsquare.mul hsecond' (by norm_num) (by norm_num) (by norm_num)) (by norm_num) (by norm_num)
  have hhigh := hthird'.add
    (hself.mul hfourth' (by norm_num) (by norm_num) (by norm_num)) (by norm_num) (by norm_num)
  have hsum := hmiddle.add
    (hcube.mul hhigh (by norm_num) (by norm_num) (by norm_num)) (by norm_num) (by norm_num)
  exact hsum.mono le_rfl (by norm_num)

/-- The unrounded cosine is clearly below one. -/
theorem cosine_add_lt_one {s : ℚ} (hlow : 1 / 2 ^ 24 + 1 / 2 ^ 46 - 16 / 2 ^ 52 ≤ s)
    (hhigh : s ≤ 5 / 8) : cosine s + 18 / 2 ^ 52 < 1 - 1 / 2 ^ 25 := by
  have hpos : 0 ≤ s := by linarith
  have hlast : s * s * s * (-0x16c087e89a359d / 2 ^ 62 + s * (0x199343027bf8c3 / 2 ^ 68)) ≤ 0 :=
    mul_nonpos_of_nonneg_of_nonpos (by positivity) (by linarith)
  -- The quadratic part is below its chord, which falls.
  have hchord := mul_nonneg (sub_nonneg.mpr hlow) (sub_nonneg.mpr hhigh)
  unfold cosine
  linarith

/-- Up to an eighth of a turn the sine has an error of 56 units, and is clearly below one. -/
theorem within_sinPolynomial {x square : Float} {y s : ℚ} (hx : Within 3 (4 / 5) x y)
    (hsquare : Within 8 (2 / 3) square s) :
    Within 56 (9 / 10) (sinPolynomial x square) (sine y s) := by
  -- The three coefficients, as the hardware has them.
  have hfirst : Holds (Float.ofBits 0xbfc555545995a603) (-0x1555545995a603 / 2 ^ 55) :=
    mod_cast holds_negative (m := 0x1555545995a603) (by decide) rfl rfl rfl
  have hsecond : Holds (Float.ofBits 0x3f81107605230bc4) (0x11107605230bc4 / 2 ^ 59) :=
    mod_cast holds_positive (m := 0x11107605230bc4) (by decide) rfl rfl rfl
  have hthird : Holds (Float.ofBits 0xbf2994eb3774cf24) (-0x1994eb3774cf24 / 2 ^ 65) :=
    mod_cast holds_negative (m := 0x1994eb3774cf24) (by decide) rfl rfl rfl
  have hfirst' := hfirst.within (c := 17 / 100) (by norm_num [abs_le])
  have hsecond' := hsecond.within (c := 1 / 100) (by norm_num [abs_le])
  have hthird' := hthird.within (c := 1 / 1000) (by norm_num [abs_le])
  -- The errors follow the evaluation, operation by operation.
  have hcube := hx.mul hsquare (by norm_num) (by norm_num) (by norm_num)
  have hfifth := hcube.mul hsquare (by norm_num) (by norm_num) (by norm_num)
  have hhigh := hsecond'.add
    (hsquare.mul hthird' (by norm_num) (by norm_num) (by norm_num)) (by norm_num) (by norm_num)
  have hlow := hx.add
    (hcube.mul hfirst' (by norm_num) (by norm_num) (by norm_num)) (by norm_num) (by norm_num)
  have hsum := hlow.add
    (hfifth.mul hhigh (by norm_num) (by norm_num) (by norm_num)) (by norm_num) (by norm_num)
  exact hsum.mono le_rfl (by norm_num)

/-! ### Reduced angles -/

/-- What is close to an angle below an eighth of a turn, but not too small, has a cosine below
one. -/
theorem cosPolynomial_lt_one {x : Float} {r : ℚ} (hx : Within 3 (79 / 100) x r)
    (hlow : 1 / 2 ^ 12 + 1 / 2 ^ 35 ≤ r) : Single.ofDouble (cosPolynomial (x * x)) < .one := by
  have hhigh := (le_abs_self r).trans hx.size
  obtain ⟨s, hs, hsr⟩ := (hx.mul hx (by norm_num) (by norm_num) (by norm_num)).error
  have hbounds := abs_le.mp hsr
  norm_num at hbounds
  have hslow : 1 / 2 ^ 24 + 1 / 2 ^ 46 - 16 / 2 ^ 52 ≤ s := by nlinarith
  have hshigh : s ≤ 5 / 8 := by nlinarith
  exact Single.ofDouble_lt_one (within_cosPolynomial hs (by rw [abs_of_nonneg] <;> linarith))
    (by norm_num) (cosine_add_lt_one hslow hshigh)

/-- The sine of what is within an eighth of a turn is below one. -/
theorem sinPolynomial_lt_one {x : Float} {y : ℚ} (hx : Within 3 (4 / 5) x y) :
    Single.ofDouble (sinPolynomial (-x) (x * x)) < .one := by
  have hsquare := hx.mul hx (by norm_num) (by norm_num) (by norm_num)
  have hsine := within_sinPolynomial (hx.neg (by norm_num) (by norm_num))
    (hsquare.mono le_rfl (by norm_num))
  refine Single.ofDouble_lt_one (hsine.mono le_rfl (by norm_num)) (by norm_num) ?_
  have hle := (le_abs_self _).trans hsine.size
  norm_num
  linarith

/-- No quarter turn is the angle zero, without rounding. -/
theorem holds_noTurn : Holds (ofInt 0 * halfPi) 0 := by
  have h := holds_positive (x := ofInt 0 * halfPi) (m := 0) (n := 1074) (by decide) (by decide)
    (by decide) (by decide)
  rwa [Nat.cast_zero, zero_div] at h

/-- One quarter turn is the double for half of `π`, without rounding. -/
theorem holds_quarterTurn : Holds (ofInt 1 * halfPi) (0x1921fb54442d18 / 2 ^ 52) :=
  mod_cast holds_positive (m := 0x1921fb54442d18) (by decide) (by decide) (by decide) (by decide)

/-- Quarter turns are counted in small parts, with an error of less than one of these. -/
theorem exists_scaled {x : Float} {r : ℚ} (hx : Within 2 (8 / 5) x r) :
    ∃ z, Holds (x * Float.ofBits 0x41645f306dc9c883) z ∧
      |z - r * (0x145f306dc9c883 / 2 ^ 29)| ≤ 1 := by
  have hscale : Holds (Float.ofBits 0x41645f306dc9c883) (0x145f306dc9c883 / 2 ^ 29) :=
    mod_cast holds_positive (m := 0x145f306dc9c883) (by decide) rfl rfl rfl
  obtain ⟨w, hw, hwr⟩ := hx.error
  have hscaled : |w * (0x145f306dc9c883 / 2 ^ 29)| ≤ 7 / 4 * 10680708 :=
    abs_mul_le_mul (abs_le_of_units hwr hx.size (by norm_num)) (by norm_num [abs_le])
  have hmoved : |(w - r) * (0x145f306dc9c883 / 2 ^ 29)| ≤ 2 / 2 ^ 52 * 10680708 :=
    abs_mul_le_mul hwr (by norm_num [abs_le])
  obtain ⟨z, hz, hzw⟩ := hw.mul hscale (hscaled.trans (by norm_num))
  have hslack := hzw.trans (slack_le _)
  refine ⟨z, hz, (abs_sub_le z (w * (0x145f306dc9c883 / 2 ^ 29)) _).trans ?_⟩
  rw [← sub_mul]
  linarith

/-- The reduction of an angle between an eighth and a quarter turn, or close to it. -/
theorem reduceModerate_cases {x : Float} {r : ℚ} (hx : Within 2 (8 / 5) x r) (hlow : 3 / 4 ≤ r)
    (hhigh : r ≤ 1571 / 1000) :
    (reduceModerate x).quarters = 0 ∧ Within 3 (79 / 100) (reduceModerate x).rest r ∨
      (reduceModerate x).quarters = 1 ∧ ∃ y, Within 3 (4 / 5) (reduceModerate x).rest y := by
  obtain ⟨z, hz, hzr⟩ := exists_scaled hx
  rw [abs_le] at hzr
  have hfloor := wholePart_eq_floor hz (by linarith)
  have hlarge : ⌊z⌋ < 25165824 := Int.floor_lt.mpr (by push_cast; linarith)
  have hnonneg : 0 ≤ ⌊z⌋ := Int.floor_nonneg.mpr (by linarith)
  rw [reduceModerate]
  dsimp only
  rw [hfloor]
  -- Rounding leads to no quarter turn or to one, as the scaled angle is below a half or not.
  rcases lt_or_ge ⌊z⌋ 8388608 with hfew | hmany
  · left
    have hzero : (⌊z⌋ + 8388608) / 16777216 = 0 := by omega
    have hz' : z < (8388608 : Int) := Int.floor_lt.mp hfew
    push_cast at hz'
    have hsize : |r - 0| ≤ 79 / 100 := by
      rw [sub_zero, abs_of_nonneg] <;> linarith
    have hrest := hx.sub (holds_noTurn.within abs_zero.le) (by norm_num) hsize (by norm_num)
    rw [sub_zero] at hrest
    rw [hzero]
    exact ⟨rfl, hrest⟩
  · right
    have hone : (⌊z⌋ + 8388608) / 16777216 = 1 := by omega
    have hz' : ((8388608 : Int) : ℚ) ≤ z := Int.le_floor.mp hmany
    push_cast at hz'
    have hsize : |r - 0x1921fb54442d18 / 2 ^ 52| ≤ 4 / 5 := by
      rw [abs_le]
      constructor <;> linarith
    have hrest := hx.sub (holds_quarterTurn.within le_rfl) (by norm_num) hsize (by norm_num)
    rw [hone]
    exact ⟨rfl, _, hrest⟩

end Trigonometry

namespace Single

open Trigonometry

/-- A single above zero has no minus sign. -/
theorem signBit_of_rank_pos {a : Single} (h : 0 < a.rank) : a.signBit = false := by
  cases hsign : a.signBit with
  | false => rfl
  | true =>
    rw [rank, if_pos hsign] at h
    omega

/-- The leading digits of a pattern compare its rank. -/
theorem magnitude_shiftRight_lt_iff {a : Single} (h : 0 ≤ a.rank) (k : UInt32) :
    a.magnitude >>> 20 < k ↔ a.rank < k.toNat * 2 ^ 20 := by
  rw [UInt32.lt_iff_toNat_lt, UInt32.toNat_shiftRight, show (20 : UInt32).toNat % 32 = 20 from rfl,
    Nat.shiftRight_eq_div_pow, Nat.div_lt_iff_lt_mul (Nat.two_pow_pos 20), ← abs_of_nonneg h,
    abs_rank]
  exact_mod_cast Iff.rfl

/-- The cosine of an angle up to a quarter turn is below one if the angle is not too small. -/
theorem wave_lt_one {r : Single} (hlow : ⟨0x39800001⟩ ≤ r) (hhigh : r ≤ ⟨0x3fc90fdb⟩) :
    wave 1 r < one := by
  have hfinite : r.isFinite = true := isFinite_of_le_of_le hlow hhigh rfl rfl
  have hpos : 0 < r.rank := Int.lt_of_lt_of_le (by decide) hlow.2.2
  have hleast : 1 / 2 ^ 12 + 1 / 2 ^ 35 ≤ r.toRat := by
    have hle := toRat_le_toRat rfl hfinite hlow
    rw [toRat, show (Single.mk 0x39800001).units = 2 ^ 137 + 2 ^ 114 from rfl] at hle
    push_cast at hle
    linarith
  have hmost : r.toRat ≤ 1571 / 1000 := by
    have hle := toRat_le_toRat hfinite rfl hhigh
    rw [toRat, toRat, show (Single.mk 0x3fc90fdb).units = 0xc90fdb * 2 ^ 126 from rfl] at hle
    push_cast at hle
    rw [toRat]
    linarith
  have hbetween : (Single.mk 0x3f400000).toRat = 3 / 4 := by
    rw [toRat, show (Single.mk 0x3f400000).units = 3 * 2 ^ 147 from rfl]
    norm_num
  have hx := within_toDouble hfinite (signBit_of_rank_pos hpos) (by linarith)
  rw [wave]
  dsimp only
  split
  -- Below three quarters the angle is not reduced, and the cosine polynomial takes it as it is.
  case isTrue hsize =>
    have hle := toRat_le_toRat hfinite (b := ⟨0x3f400000⟩) rfl
      ⟨isNaN_of_isFinite hfinite, rfl, ((magnitude_shiftRight_lt_iff hpos.le _).mp hsize).le⟩
    have hsize : |r.toRat| ≤ 79 / 100 := by
      rw [abs_of_nonneg] <;> linarith
    have hx' : Double.Within 2 (79 / 100) r.toDouble r.toRat := ⟨hsize, hx.error⟩
    exact cosPolynomial_lt_one (hx'.mono (by norm_num) le_rfl) hleast
  case isFalse hsize =>
    have hle := toRat_le_toRat (a := ⟨0x3f400000⟩) rfl hfinite
      ⟨rfl, isNaN_of_isFinite hfinite,
        not_lt.mp (mt (magnitude_shiftRight_lt_iff hpos.le 0x3f4).mpr hsize)⟩
    have hmoderate : r.magnitude >>> 20 < 0x42f :=
      (magnitude_shiftRight_lt_iff hpos.le _).mpr (Int.lt_of_le_of_lt hhigh.2.2 (by decide))
    rw [if_pos hmoderate]
    rcases reduceModerate_cases hx (hbetween ▸ hle) hmost with
      ⟨hquarters, hrest⟩ | ⟨hquarters, y, hrest⟩
    · rw [hquarters]
      exact cosPolynomial_lt_one hrest hleast
    · rw [hquarters]
      exact sinPolynomial_lt_one hrest

/-- The cosine of a small angle is one. -/
theorem cos_eq_one {r : Single} (hlow : zero ≤ r) (hhigh : r ≤ ⟨0x39800000⟩) : r.cos = one := by
  have hfinite : r.isFinite = true := isFinite_of_le_of_le hlow hhigh rfl rfl
  have hrank : 0 ≤ r.rank := hlow.2.2
  rcases hhigh.2.2.lt_or_eq with hlt | heq
  · rw [cos, hfinite, if_neg (by decide),
      if_pos ((magnitude_shiftRight_lt_iff hrank 0x398).mpr hlt)]
  · have hsign : r.sign = .positive := by
      rw [sign, signBit_of_rank_pos (heq ▸ by decide), if_neg Bool.false_ne_true]
    have hmagnitude : (r.magnitude.toNat : Int) = 0x39800000 := by
      rw [← abs_rank, heq]
      rfl
    obtain rfl : r = ⟨0x39800000⟩ := ext_of_has ⟨hsign, by exact_mod_cast hmagnitude⟩ ⟨rfl, rfl⟩
    decide +kernel

/-- Up to a quarter turn the cosine is below one above the angle `2 ^ -12`, and is one up to
it. -/
theorem cos_lt_one_iff {r : Single} (hlow : zero ≤ r) (hhigh : r ≤ ⟨0x3fc90fdb⟩) :
    r.cos < one ↔ ⟨0x39800000⟩ < r := by
  constructor
  · intro hlt
    rw [← Single.not_le hlow.2.1 rfl]
    intro hle
    rw [cos_eq_one hlow hle] at hlt
    exact absurd hlt (by decide)
  · intro hlt
    have hnext : ⟨0x39800001⟩ ≤ r := ⟨rfl, hlt.2.1, hlt.2.2⟩
    have hfinite : r.isFinite = true := isFinite_of_le_of_le hlow hhigh rfl rfl
    have hlarge : ¬ r.magnitude >>> 20 < 0x398 := by
      rw [magnitude_shiftRight_lt_iff hlow.2.2]
      exact Int.not_lt.mpr hlt.2.2.le
    rw [cos, hfinite, if_neg (by decide), if_neg hlarge]
    exact wave_lt_one hnext hhigh

end Single

end Battlemap
