import Battlemap.Number.Double
import Battlemap.Proofs.Number.Unpacked

/-!
# `Battlemap.Proofs.Number.Double`: doubles, rational numbers and small errors

A finite double stands for a rational number, its significand times a power of two (`toRat`,
`holds_iff`). A sum, a difference or a product of two finite doubles is the exact one but for
half a spacing (`Holds.add`, `Holds.sub`, `Holds.mul`), and so is a converted integer
(`holds_toFloat`).

`Within` bounds the size of a number and counts the error of a double in units of `2 ^ -52`. As
long as the numbers are not much above one, each operation adds a unit or two to the errors of
its operands (`Within.add`, `Within.sub`, `Within.mul`), so size and error of a polynomial are
found by following its operations.
-/

set_option autoImplicit false

namespace Battlemap

open Float.Model Float.Model.UnpackedFloat

/-- A power of two as the quotient of two natural numbers. -/
theorem two_zpow_eq_div (e : Int) : (2 : ℚ) ^ e = 2 ^ e.toNat / 2 ^ (-e).toNat := by
  rw [← zpow_natCast, ← zpow_natCast, ← zpow_sub₀ two_ne_zero]
  congr 1
  omega

namespace Double

/-! ### Patterns and their fields -/

/-- The magnitude is the pattern without its first bit. -/
theorem toNat_magnitude (x : Float) : (magnitude x).toNat = x.toBits.toNat % 2 ^ 63 := by
  rw [magnitude, UInt64.toNat_and]
  exact Nat.and_two_pow_sub_one_eq_mod _ 63

/-- The first bit of the pattern is the sign. -/
theorem signBit_eq_true_iff {x : Float} : signBit x = true ↔ 2 ^ 63 ≤ x.toBits.toNat := by
  have hlt := x.toBits.toNat_lt
  rw [signBit, bne_iff_ne, ne_eq, ← UInt64.toNat_inj, UInt64.toNat_and,
    show (0x8000000000000000 : UInt64).toNat = 2 ^ 63 from rfl, Nat.and_two_pow,
    Nat.testBit_eq_decide_div_mod_eq]
  simp
  omega

/-- The next eleven bits are the exponent field. -/
theorem toNat_field (x : Float) :
    (magnitude x >>> 52).toNat = x.toBits.toNat / 2 ^ 52 % 2 ^ 11 := by
  rw [UInt64.toNat_shiftRight, toNat_magnitude, show (52 : UInt64).toNat % 64 = 52 from rfl,
    Nat.shiftRight_eq_div_pow]
  omega

/-- The other bits are the significand, with one more in front unless the exponent field is
zero. -/
theorem significand_eq (x : Float) : significand x
    = x.toBits.toNat % 2 ^ 52 + if x.toBits.toNat / 2 ^ 52 % 2 ^ 11 = 0 then 0 else 2 ^ 52 := by
  have hfraction : (magnitude x &&& 0xfffffffffffff).toNat = x.toBits.toNat % 2 ^ 52 := by
    rw [UInt64.toNat_and, toNat_magnitude,
      show (0xfffffffffffff : UInt64).toNat = 2 ^ 52 - 1 from rfl, Nat.and_two_pow_sub_one_eq_mod]
    omega
  have hzero : magnitude x >>> 52 = 0 ↔ x.toBits.toNat / 2 ^ 52 % 2 ^ 11 = 0 := by
    rw [← toNat_field, ← UInt64.toNat_inj]
    rfl
  rw [significand, hfraction]
  simp only [hzero]
  split <;> omega

/-- Whether the number is neither infinite nor NaN. -/
def IsFinite (x : Float) : Prop := magnitude x < 0x7ff0000000000000

instance (x : Float) : Decidable (IsFinite x) :=
  inferInstanceAs (Decidable (magnitude x < 0x7ff0000000000000))

/-- A double is finite unless its exponent field is the greatest one. -/
theorem isFinite_iff {x : Float} : IsFinite x ↔ x.toBits.toNat / 2 ^ 52 % 2 ^ 11 < 2047 := by
  rw [IsFinite, UInt64.lt_iff_toNat_lt, toNat_magnitude,
    show (0x7ff0000000000000 : UInt64).toNat = 2047 * 2 ^ 52 from rfl]
  omega

/-- The sign of a number. -/
def sign (x : Float) : Sign := if signBit x then .negative else .positive

/-- The double as the hardware sees it. -/
def unpacked (x : Float) : UnpackedFloat := x.toModel.unpack

/-- A finite double is unpacked to its sign, significand and exponent. -/
theorem unpacked_of_isFinite {x : Float} (h : IsFinite x) :
    unpacked x = if hzero : significand x = 0 then .zero (sign x)
      else .finite (sign x) (significand x) (exponent x) (Nat.pos_of_ne_zero hzero) := by
  have hfield : (@unpackExponent Format.binary64 x.toBits.toBitVec).toNat
      = x.toBits.toNat / 2 ^ 52 % 2 ^ 11 := toNat_unpackExponent _
  have hmantissa : @mantissaOf Format.binary64 x.toBits.toBitVec = significand x := by
    rw [mantissaOf, hfield, toNat_unpackMantissa, significand_eq]
    rfl
  have hexponent : @exponentOf Format.binary64 x.toBits.toBitVec = exponent x := by
    rw [exponentOf, hfield, exponent, toNat_field, Nat.cast_max]
    rfl
  have hsign : Sign.ofBitVec (@unpackSign Format.binary64 x.toBits.toBitVec) = sign x := by
    rw [ofBitVec_unpackSign_eq, sign]
    exact if_congr signBit_eq_true_iff.symm rfl rfl
  have htop : @unpackExponent Format.binary64 x.toBits.toBitVec ≠ -1#_ := by
    -- The greatest exponent is that of no finite double.
    rw [ne_eq, ← BitVec.toNat_inj, hfield]
    exact (isFinite_iff.mp h).ne
  have hunpack := unpack_eq htop
  simp only [hmantissa, hexponent, hsign] at hunpack
  exact hunpack

/-- An infinity or a NaN is unpacked to one. -/
theorem isFinite_unpacked_eq_false {x : Float} (h : ¬ IsFinite x) :
    (unpacked x).isFinite = false := by
  rw [isFinite_iff] at h
  have htop : @unpackExponent Format.binary64 x.toBits.toBitVec = -1#_ := by
    rw [← BitVec.toNat_inj, toNat_unpackExponent]
    change x.toBits.toNat / 2 ^ 52 % 2 ^ 11 = 2047
    omega
  exact isFinite_unpack_of_top htop

/-! ### Doubles and rational numbers -/

/-- A double stands for a rational number. -/
def Holds (x : Float) (y : ℚ) : Prop := StandsFor Format.binary64 (unpacked x) y

/-- The number that a finite double stands for. -/
def toRat (x : Float) : ℚ := ((sign x).apply 1 : Int) * (significand x * 2 ^ exponent x)

/-- A significand has at most 53 digits. -/
theorem significand_lt (x : Float) : significand x < 2 ^ 53 := by
  rw [significand_eq]
  split <;> omega

/-- A significand is short only with the least exponent. -/
theorem exponent_cases (x : Float) : exponent x = -1074 ∨ 2 ^ 52 ≤ significand x := by
  rw [exponent, toNat_field, significand_eq]
  split <;> omega

/-- A double stands for one number if it is finite, and for none otherwise. -/
theorem holds_iff {x : Float} {y : ℚ} : Holds x y ↔ IsFinite x ∧ toRat x = y := by
  by_cases hfinite : IsFinite x
  · rw [Holds, unpacked_of_isFinite hfinite, toRat]
    simp only [hfinite, true_and]
    split
    case isTrue hzero =>
      -- Both sides say that the number is zero.
      rw [hzero, Nat.cast_zero, zero_mul, mul_zero]
      constructor
      · intro h
        cases h
        rfl
      · rintro rfl
        exact .zero _
    case isFalse hne =>
      constructor
      · intro h
        cases h
        rfl
      · rintro rfl
        refine .finite _ (significand_lt x) ?_ (exponent_cases x)
        change -1074 ≤ exponent x
        rw [exponent]
        omega
  · have hunpacked := isFinite_unpacked_eq_false hfinite
    refine iff_of_false (fun h => ?_) (fun h => hfinite h.1)
    rw [Holds] at h
    cases hx : unpacked x with
    | zero s => rw [hx] at hunpacked; cases hunpacked
    | finite s m e hpos => rw [hx] at hunpacked; cases hunpacked
    | infinity s => rw [hx] at h; cases h
    | notANumber => rw [hx] at h; cases h

/-- A double with a significand and an exponent. -/
theorem holds_of_fields {x : Float} {m : Nat} {e : Int} (hfinite : IsFinite x)
    (hm : significand x = m) (he : exponent x = e) :
    Holds x (((sign x).apply 1 : Int) * (m * 2 ^ e)) := by
  rw [holds_iff, toRat, hm, he]
  exact ⟨hfinite, rfl⟩

/-- A double without a minus sign stands for the fraction that its pattern spells. -/
theorem holds_positive {x : Float} {m n : Nat} (hfinite : IsFinite x) (hsign : signBit x = false)
    (hm : significand x = m) (he : exponent x = -n) : Holds x (m / 2 ^ n) := by
  have h := holds_of_fields hfinite hm he
  rw [sign, hsign] at h
  simpa [Sign.apply, div_eq_mul_inv] using h

/-- A double with a minus sign stands for the negative of that fraction. -/
theorem holds_negative {x : Float} {m n : Nat} (hfinite : IsFinite x) (hsign : signBit x = true)
    (hm : significand x = m) (he : exponent x = -n) : Holds x (-m / 2 ^ n) := by
  have h := holds_of_fields hfinite hm he
  rw [sign, hsign] at h
  simpa [Sign.apply, div_eq_mul_inv] using h

/-- A pattern that is not that of an infinity or NaN is kept by the hardware. -/
theorem toBits_ofBits {b : UInt64} (h : b.toNat / 2 ^ 52 % 2 ^ 11 < 2047) :
    (Float.ofBits b).toBits = b := by
  have htop : @unpackExponent Format.binary64 b.toBitVec ≠ -1#_ := by
    rw [ne_eq, ← BitVec.toNat_inj, toNat_unpackExponent]
    exact h.ne
  exact congrArg UInt64.ofBitVec (pack_unpack_of_ne_top (by decide) htop)

/-- The power of two of an exponent of normal doubles. -/
theorem holds_twoPow {e : Int} (hlow : -1022 ≤ e) (hhigh : e ≤ 1023) :
    Holds (twoPow e) (2 ^ e) := by
  obtain ⟨field, hfield⟩ := Int.eq_ofNat_of_zero_le (show 0 ≤ e + 1023 by omega)
  have hbits : ((e + 1023).toNat.toUInt64 <<< 52).toNat = field * 2 ^ 52 := by
    rw [hfield, UInt64.toNat_shiftLeft, Int.toNat_natCast, Nat.toUInt64_eq,
      UInt64.toNat_ofNat_of_lt' (by rw [UInt64.size]; omega), Nat.shiftLeft_eq]
    exact Nat.mod_eq_of_lt (by rw [show (52 : UInt64).toNat % 64 = 52 from rfl]; omega)
  have hpattern : (twoPow e).toBits.toNat = field * 2 ^ 52 := by
    rw [twoPow, toBits_ofBits (by rw [hbits]; omega), hbits]
  -- The pattern has its exponent field only, so the sign is positive and the fraction zero.
  have hsign : sign (twoPow e) = .positive := by
    rw [sign, if_neg]
    rw [signBit_eq_true_iff, hpattern]
    omega
  have hholds := holds_of_fields (x := twoPow e) (m := 2 ^ 52) (e := e - 52)
    (by rw [isFinite_iff, hpattern]; omega)
    (by rw [significand_eq, hpattern, if_neg (by omega)]; omega)
    (by rw [exponent, toNat_field, hpattern]; omega)
  rw [hsign, Sign.apply, Int.cast_one, one_mul, Nat.cast_pow, Nat.cast_two, ← zpow_natCast,
    ← zpow_add₀ two_ne_zero] at hholds
  convert hholds using 2
  omega

/-! ### Operations -/

/-- What the hardware sees of a rounded number that it packed. -/
def packed (f : UnpackedFloat) : UnpackedFloat :=
  UnpackedFloat.unpack Format.binary64 (UnpackedFloat.pack Format.binary64 f)

/-- The sum of doubles is the rounded sum of what they are unpacked to. -/
theorem unpacked_add (a b : Float) : unpacked (a + b)
    = packed (UnpackedFloat.add Format.binary64 (unpacked a) (unpacked b)) := rfl

/-- Their difference is the rounded difference. -/
theorem unpacked_sub (a b : Float) : unpacked (a - b)
    = packed (UnpackedFloat.sub Format.binary64 (unpacked a) (unpacked b)) := rfl

/-- Their product is the rounded product. -/
theorem unpacked_mul (a b : Float) : unpacked (a * b)
    = packed (UnpackedFloat.mul Format.binary64 (unpacked a) (unpacked b)) := rfl

/-- Packing keeps a number that is not too large. -/
theorem standsFor_packed {f : UnpackedFloat} {y : ℚ} (h : StandsFor Format.binary64 f y)
    (hy : |y| ≤ 2 ^ 201) : StandsFor Format.binary64 (packed f) y := by
  cases h with
  | zero s =>
    have hpacked : packed (.zero s) = .zero s := by cases s <;> rfl
    rw [hpacked]
    exact .zero s
  | @finite s m e hpos hlt hleast hnormal =>
    have hlarge : e < 201 := by
      rw [abs_mul, abs_apply_one, one_mul, abs_of_pos (by positivity)] at hy
      by_contra hge
      have hm : (2 : ℚ) ^ 52 ≤ m := by
        have hm := hnormal.resolve_left (by rintro rfl; exact hge (by decide))
        exact_mod_cast hm
      have hpower : (2 : ℚ) ^ 201 ≤ 2 ^ e := by
        rw [← zpow_natCast]
        exact zpow_le_zpow_right₀ one_le_two (not_lt.mp hge)
      have hproduct : (2 : ℚ) ^ 52 * 2 ^ 201 ≤ m * 2 ^ e := by gcongr
      exact absurd (hproduct.trans hy) (by norm_num)
    have hunpack := @unpack_pack Format.binary64 s m e hpos hlt hleast hnormal
      (by change e + 1023 + 52 + 1 < 2048; clear hlt hleast hnormal; omega)
    rw [packed, hunpack]
    exact .finite hpos hlt hleast hnormal

/-- A number that is rounded and packed is the exact one but for half a spacing. -/
theorem exists_standsFor_packed {f : UnpackedFloat} {y : ℚ} (h : Rounds Format.binary64 f y)
    (hy : |y| ≤ 2 ^ 200) :
    ∃ z, StandsFor Format.binary64 (packed f) z ∧ |z - y| ≤ slack Format.binary64 y := by
  obtain ⟨z, hz, hslack⟩ := h
  refine ⟨z, standsFor_packed hz ?_, hslack⟩
  have hsmall : slack Format.binary64 y ≤ 2 ^ 200 := by
    have hleast : (2 : ℚ) ^ (Format.binary64.minExponent - 1) ≤ 2 ^ 199 := by
      rw [← zpow_natCast]
      exact zpow_le_zpow_right₀ one_le_two (by decide)
    have hpart : |y| / 2 ^ Format.binary64.mantissaBits ≤ 2 ^ 199 := by
      rw [show Format.binary64.mantissaBits = 53 from rfl, div_le_iff₀ (by positivity)]
      exact hy.trans (by norm_num)
    calc slack Format.binary64 y ≤ 2 ^ 199 + 2 ^ 199 := add_le_add hpart hleast
      _ = 2 ^ 200 := by norm_num
  have htriangle := abs_sub_abs_le_abs_sub z y
  calc |z| ≤ |y| + |z - y| := by linarith
    _ ≤ 2 ^ 200 + 2 ^ 200 := add_le_add hy (hslack.trans hsmall)
    _ = 2 ^ 201 := by norm_num

/-- A product is the exact one but for half a spacing. -/
theorem Holds.mul {a b : Float} {x y : ℚ} (ha : Holds a x) (hb : Holds b y)
    (h : |x * y| ≤ 2 ^ 200) :
    ∃ z, Holds (a * b) z ∧ |z - x * y| ≤ slack Format.binary64 (x * y) :=
  exists_standsFor_packed (StandsFor.rounds_mul ha hb) h

/-- Changing the sign of a double is exact. -/
theorem Holds.neg {a : Float} {x : ℚ} (ha : Holds a x) (h : |x| ≤ 2 ^ 201) : Holds (-a) (-x) :=
  standsFor_packed (StandsFor.neg ha) (by rwa [abs_neg])

/-- A converted integer is the exact one but for half a spacing. -/
theorem holds_toFloat (n : UInt64) :
    ∃ z, Holds n.toFloat z ∧ |z - n.toNat| ≤ slack Format.binary64 n.toNat := by
  have hrounds := rounds_normalize Format.binary64 n.toNat 0
  rw [zpow_zero, mul_one, Int.cast_natCast] at hrounds
  refine exists_standsFor_packed hrounds ?_
  rw [abs_of_nonneg (Nat.cast_nonneg _)]
  calc (n.toNat : ℚ) ≤ 2 ^ 64 := by exact_mod_cast n.toNat_lt.le
    _ ≤ 2 ^ 200 := by norm_num

/-! ### Whole parts -/

/-- The whole part of a positive number. -/
theorem wholePart_eq_floor {x : Float} {y : ℚ} (h : Holds x y) (hy : 0 < y) :
    wholePart x = ⌊y⌋ := by
  obtain ⟨-, rfl⟩ := holds_iff.mp h
  have hsize : (0 : ℚ) ≤ significand x * 2 ^ exponent x := by positivity
  have hsign : signBit x = false := by
    by_contra hsign
    rw [toRat, sign, if_pos (Bool.not_eq_false _ ▸ hsign)] at hy
    simp only [Sign.apply] at hy
    push_cast at hy
    linarith
  have hrat : toRat x = significand x * 2 ^ exponent x := by
    rw [toRat, sign, hsign]
    simp [Sign.apply]
  rw [wholePart, hsign, if_neg Bool.false_ne_true, hrat]
  split
  case isTrue hnonneg =>
    have hwhole : (significand x : ℚ) * 2 ^ exponent x
        = ((significand x * 2 ^ (exponent x).toNat : Nat) : Int) := by
      push_cast
      rw [← zpow_natCast, Int.toNat_of_nonneg hnonneg]
    rw [hwhole, Int.floor_intCast]
    rfl
  case isFalse hneg =>
    have hquotient : (significand x : ℚ) * 2 ^ exponent x
        = (significand x : ℚ) / ((2 ^ (-exponent x).toNat : Nat) : ℚ) := by
      rw [two_zpow_eq_div, Int.toNat_of_nonpos (by omega), pow_zero, mul_one_div, Nat.cast_pow,
        Nat.cast_two]
    rw [hquotient, Rat.floor_natCast_div_natCast]
    rfl

/-! ### Errors in units -/

/-- A double is a number of a bounded size but for some units of `2 ^ -52`. -/
structure Within (k : ℕ) (c : ℚ) (a : Float) (x : ℚ) : Prop where
  size : |x| ≤ c
  error : ∃ z, Holds a z ∧ |z - x| ≤ k / 2 ^ 52

/-- Rounding to a double is off by a half unit in the last place, or by very little near zero.
-/
theorem slack_le (z : ℚ) : slack Format.binary64 z ≤ |z| / 2 ^ 53 + 1 / 2 ^ 60 := by
  have hleast : (2 : ℚ) ^ (Format.binary64.minExponent - 1) ≤ 2 ^ (-60 : ℤ) :=
    zpow_le_zpow_right₀ one_le_two (by decide)
  rw [slack, show Format.binary64.mantissaBits = 53 from rfl]
  gcongr
  exact hleast.trans_eq (by norm_num)

/-- Rounding a number below two costs one unit at most. -/
theorem slack_le_unit {z : ℚ} (h : |z| ≤ 7 / 4) : slack Format.binary64 z ≤ 1 / 2 ^ 52 :=
  calc slack Format.binary64 z ≤ |z| / 2 ^ 53 + 1 / 2 ^ 60 := slack_le z
    _ ≤ 7 / 4 / 2 ^ 53 + 1 / 2 ^ 60 := by gcongr
    _ ≤ 1 / 2 ^ 52 := by norm_num

section
variable {a b : Float} {x y c d : ℚ} {j k : ℕ}

/-- A double that stands for a number is that number with no error. -/
theorem Holds.within (h : Holds a x) (hx : |x| ≤ c) : Within 0 c a x :=
  ⟨hx, x, h, by simp⟩

/-- An error and a size may be estimated more roughly. -/
theorem Within.mono (h : Within j c a x) (hjk : j ≤ k) (hcd : c ≤ d) : Within k d a x := by
  obtain ⟨z, hz, hzx⟩ := h.error
  exact ⟨h.size.trans hcd, z, hz, hzx.trans (by gcongr)⟩

/-- A few units are little. -/
theorem units_le (h : k ≤ 2 ^ 20) : (k : ℚ) / 2 ^ 52 ≤ 1 / 2 ^ 32 := by
  have h' : (k : ℚ) ≤ 2 ^ 20 := by exact_mod_cast h
  rw [div_le_iff₀ (by positivity)]
  exact h'.trans_eq (by norm_num)

/-- A number of bounded size stays bounded when it is off by some units. -/
theorem abs_le_of_units {v : ℚ} (hv : |v - x| ≤ k / 2 ^ 52) (hx : |x| ≤ 8 / 5) (hk : k ≤ 2 ^ 20) :
    |v| ≤ 7 / 4 := by
  have htriangle := abs_sub_abs_le_abs_sub v x
  have hsmall := units_le hk
  linarith

/-- A rounded result has the error of the exact one and a unit. -/
theorem within_of_rounds {f : UnpackedFloat} {v : ℚ} (ha : unpacked a = packed f)
    (hf : Rounds Format.binary64 f v) (hv : |v - x| ≤ k / 2 ^ 52) (hk : k ≤ 2 ^ 20)
    (hx : |x| ≤ c) (hc : c ≤ 8 / 5) : Within (k + 1) c a x := by
  have hsmall := abs_le_of_units hv (hx.trans hc) hk
  obtain ⟨z, hz, hslack⟩ := exists_standsFor_packed hf (hsmall.trans (by norm_num))
  refine ⟨hx, z, by rwa [Holds, ha], ?_⟩
  calc |z - x| ≤ |z - v| + |v - x| := abs_sub_le z v x
    _ ≤ 1 / 2 ^ 52 + k / 2 ^ 52 := add_le_add (hslack.trans (slack_le_unit hsmall)) hv
    _ = (k + 1 : ℕ) / 2 ^ 52 := by push_cast; ring

/-- A sum has the errors of its terms, and one unit more for rounding. -/
theorem Within.add (ha : Within j c a x) (hb : Within k d b y) (hjk : j + k ≤ 2 ^ 20)
    (hcd : c + d ≤ 8 / 5) : Within (j + k + 1) (c + d) (a + b) (x + y) := by
  obtain ⟨z, hz, hzx⟩ := ha.error
  obtain ⟨w, hw, hwy⟩ := hb.error
  refine within_of_rounds (unpacked_add a b) (StandsFor.rounds_add hz hw) ?_ hjk
    ((abs_add_le x y).trans (add_le_add ha.size hb.size)) hcd
  rw [add_sub_add_comm, Nat.cast_add, add_div]
  exact (abs_add_le _ _).trans (add_le_add hzx hwy)

/-- A difference may be less than its terms. -/
theorem Within.sub {e : ℚ} (ha : Within j c a x) (hb : Within k d b y) (hjk : j + k ≤ 2 ^ 20)
    (hxy : |x - y| ≤ e) (he : e ≤ 8 / 5) : Within (j + k + 1) e (a - b) (x - y) := by
  obtain ⟨z, hz, hzx⟩ := ha.error
  obtain ⟨w, hw, hwy⟩ := hb.error
  refine within_of_rounds (unpacked_sub a b) (StandsFor.rounds_sub hz hw) ?_ hjk hxy he
  rw [sub_sub_sub_comm, Nat.cast_add, add_div]
  exact (abs_sub _ _).trans (add_le_add hzx hwy)

/-- The size of a product is bounded by the product of the bounds. -/
theorem abs_mul_le_mul (hx : |x| ≤ c) (hy : |y| ≤ d) : |x * y| ≤ c * d := by
  rw [abs_mul]
  exact mul_le_mul hx hy (abs_nonneg y) ((abs_nonneg x).trans hx)

/-- Two small errors of factors come to little more than their sum. -/
theorem Within.mul (ha : Within j c a x) (hb : Within k d b y) (hjk : j + k + 1 ≤ 2 ^ 20)
    (hc : c ≤ 1) (hd : d ≤ 1) : Within (j + k + 2) (c * d) (a * b) (x * y) := by
  obtain ⟨z, hz, hzx⟩ := ha.error
  obtain ⟨w, hw, hwy⟩ := hb.error
  have hsize : c * d ≤ 8 / 5 :=
    (mul_le_one₀ hc ((abs_nonneg y).trans hb.size) hd).trans (by norm_num)
  refine within_of_rounds (k := j + k + 1) (unpacked_mul a b) (StandsFor.rounds_mul hz hw) ?_ hjk
    (abs_mul_le_mul ha.size hb.size) hsize
  have hsplit : z * w - x * y = (z - x) * (w - y) + x * (w - y) + (z - x) * y := by ring
  have hboth : |(z - x) * (w - y)| ≤ 1 / 2 ^ 52 := by
    have hj := hzx.trans (units_le (k := j) (by omega))
    have hk := hwy.trans (units_le (k := k) (by omega))
    exact (abs_mul_le_mul hj hk).trans (by norm_num)
  have hfirst : |x * (w - y)| ≤ 1 * (k / 2 ^ 52) := abs_mul_le_mul (ha.size.trans hc) hwy
  have hsecond : |(z - x) * y| ≤ j / 2 ^ 52 * 1 := abs_mul_le_mul hzx (hb.size.trans hd)
  rw [hsplit]
  refine (abs_add_three _ _ _).trans ?_
  push_cast
  rw [add_div, add_div]
  linarith

/-- Changing the sign adds no error. -/
theorem Within.neg (ha : Within k c a x) (hk : k ≤ 2 ^ 20) (hc : c ≤ 8 / 5) :
    Within k c (-a) (-x) := by
  obtain ⟨z, hz, hzx⟩ := ha.error
  have hsmall := abs_le_of_units hzx (ha.size.trans hc) hk
  exact ⟨(abs_neg x).le.trans ha.size, -z, hz.neg (hsmall.trans (by norm_num)),
    by rwa [neg_sub_neg, abs_sub_comm]⟩

end

end Double

end Battlemap
