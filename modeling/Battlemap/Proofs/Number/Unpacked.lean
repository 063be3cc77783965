import Battlemap.Proofs.Number.Rounding
import Mathlib

/-!
# `Battlemap.Proofs.Number.Unpacked`: one operation of the hardware, in any format

The hardware is described by the standard library's model of it. A number is unpacked to a sign,
a mantissa and an exponent, an operation is done on these, and the result is rounded and packed
again. None of this depends on the format but for three numbers: how many digits a mantissa has,
how many the exponent has, and the least exponent. What is the same in all formats is proved
here once.

The hardware shifts digits out before it rounds, and keeps two bits for all of them.
`Approximates` says what these bits mean, and that they are enough to round
(`Approximates.roundedMantissa`). A mantissa that is rounded fits into the format, if need be
with one more shift (`exists_shiftToTargetExponent`).

`StandsFor` relates the unpacked numbers of a format to rational numbers. Packing and unpacking
leaves them as they are (`unpack_pack`). `Rounds` says that a number is a rational one but for
half a spacing of the format (`slack`): sums, differences and products are
(`StandsFor.rounds_add`, `StandsFor.rounds_sub`, `StandsFor.rounds_mul`).
-/

set_option autoImplicit false

namespace Battlemap

open Float.Model Float.Model.UnpackedFloat

/-! ### Shifted mantissas -/

/-- The mantissa is the whole part of a number, the first bit says whether
the remainder is at least one half, and the second one whether there is
more. -/
def Approximates (em : ExtendedMantissa) (x : ℚ) : Prop :=
  ∃ rest : ℚ, 0 ≤ rest ∧ rest < 1 / 2 ∧ (em.stickyBit = true ↔ rest ≠ 0) ∧
    x = em.mantissa + (if em.roundBit then 1 / 2 else 0) + rest

namespace Approximates

variable {em : ExtendedMantissa} {x : ℚ}

/-- An extended mantissa stands for a number that is not negative. -/
theorem nonneg (h : Approximates em x) : 0 ≤ x := by
  obtain ⟨rest, hnonneg, -, -, rfl⟩ := h
  positivity

/-- The mantissa is the whole part of the number. -/
theorem floor (h : Approximates em x) : ⌊x⌋₊ = em.mantissa := by
  obtain ⟨rest, hnonneg, hlt, -, rfl⟩ := h
  rw [Nat.floor_eq_iff (by positivity)]
  split <;> constructor <;> linarith

/-- The two bits are enough to round. -/
theorem roundedMantissa (h : Approximates em x) : em.roundedMantissa = roundEven x := by
  have hfloor := h.floor
  obtain ⟨rest, hnonneg, hlt, hsticky, hx⟩ := h
  unfold roundEven
  rw [hfloor]
  obtain ⟨m, roundBit, stickyBit⟩ := em
  dsimp only at hsticky hx ⊢
  -- Below a half, with the second bit clear or set, exactly a half, and above it.
  cases roundBit <;> cases stickyBit
  case false.false =>
    have hrest : rest = 0 := by simpa using hsticky
    rw [if_pos (by rw [hx, hrest]; norm_num)]
    rfl
  case false.true =>
    rw [if_pos (by rw [hx]; norm_num; linarith)]
    rfl
  case true.false =>
    have hrest : rest = 0 := by simpa using hsticky
    rw [if_neg (by rw [hx, hrest]; norm_num), if_neg (by rw [hx, hrest]; norm_num)]
    rfl
  case true.true =>
    have hrest : 0 < rest := lt_of_le_of_ne hnonneg (Ne.symm (hsticky.mp rfl))
    rw [if_neg (by rw [hx]; norm_num; linarith), if_pos (by rw [hx]; norm_num; linarith)]
    rfl

/-- Shifting by one digit halves the number. -/
theorem shiftRightOne (h : Approximates em x) : Approximates em.shiftRightOne (x / 2) := by
  obtain ⟨rest, hnonneg, hlt, hsticky, rfl⟩ := h
  obtain ⟨m, roundBit, stickyBit⟩ := em
  -- Both bits go into the second one, and the last digit into the first.
  refine ⟨(if roundBit then 1 / 4 else 0) + rest / 2, ?_, ?_, ?_, ?_⟩
  · positivity
  · split <;> linarith
  · have hiff : (if roundBit then (1 / 4 : ℚ) else 0) + rest / 2 ≠ 0
        ↔ roundBit = true ∨ rest ≠ 0 := by
      cases roundBit
      · simp
      · simpa using by positivity
    rw [hiff, ← hsticky]
    simp [ExtendedMantissa.shiftRightOne]
  · have hdigits : (m : ℚ) = 2 * (m / 2 : ℕ) + (m % 2 : ℕ) := by
      exact_mod_cast (Nat.div_add_mod m 2).symm
    have hlast : ((m % 2 : ℕ) : ℚ) / 2 = if m % 2 != 0 then 1 / 2 else 0 := by
      rcases Nat.mod_two_eq_zero_or_one m with hm | hm <;> simp [hm]
    change (m + (if roundBit then 1 / 2 else 0) + rest) / 2
      = (m / 2 : ℕ) + (if m % 2 != 0 then 1 / 2 else 0) + _
    rw [hdigits, ← hlast]
    split <;> ring

/-- Shifting by some digits divides it by a power of two. -/
theorem shiftRight (h : Approximates em x) (n : Nat) : Approximates (em >>> n) (x / 2 ^ n) := by
  induction n with
  | zero =>
    rw [pow_zero, div_one]
    exact h
  | succ n ih =>
    rw [pow_succ, ← div_div]
    exact ih.shiftRightOne

end Approximates

/-- A whole number has no remainder. -/
theorem approximates_exact (m : Nat) :
    Approximates (.ofMantissaAndAccuracy m .exact) m :=
  ⟨0, le_rfl, by norm_num, by simp [ExtendedMantissa.ofMantissaAndAccuracy],
    by simp [ExtendedMantissa.ofMantissaAndAccuracy]⟩

/-- The remainder of a division says how near the quotient is. -/
theorem approximates_quotient (num : Nat) {den : Nat} (hden : 0 < den) :
    Approximates (.ofMantissaAndAccuracy (num / den) (accuracyOfFraction (num % den) den))
      (num / den) := by
  have hden' : (0 : ℚ) < den := by exact_mod_cast hden
  have hlt : ((num % den : ℕ) : ℚ) < den := by exact_mod_cast Nat.mod_lt num hden
  have hquotient : (num : ℚ) / den = (num / den : ℕ) + (num % den : ℕ) / den := by
    rw [div_eq_iff hden'.ne', add_mul, div_mul_cancel₀ _ hden'.ne']
    exact_mod_cast (Nat.div_add_mod' num den).symm
  unfold accuracyOfFraction
  split
  case isTrue hzero =>
    rw [hquotient, hzero, Nat.cast_zero, zero_div, add_zero]
    exact approximates_exact _
  case isFalse hne =>
    have hpos : (0 : ℚ) < (num % den : ℕ) := by exact_mod_cast Nat.pos_of_ne_zero hne
    generalize num % den = r at *
    rw [hquotient]
    -- The bits say on which side of one half the remainder is.
    rcases lt_trichotomy (2 * r) den with hr | hr | hr
    · have hhalf : (r : ℚ) / den < 1 / 2 := by
        rw [div_lt_div_iff₀ hden' two_pos]
        exact_mod_cast (by omega : r * 2 < 1 * den)
      rw [Nat.compare_eq_lt.mpr hr]
      exact ⟨r / den, by positivity, hhalf, iff_of_true rfl (by positivity),
        by simp [ExtendedMantissa.ofMantissaAndAccuracy]⟩
    · have hhalf : (r : ℚ) / den = 1 / 2 := by
        rw [div_eq_div_iff hden'.ne' two_ne_zero]
        exact_mod_cast (by omega : r * 2 = 1 * den)
      rw [Nat.compare_eq_eq.mpr hr, hhalf]
      exact ⟨0, le_rfl, by norm_num, by simp [ExtendedMantissa.ofMantissaAndAccuracy],
        by simp [ExtendedMantissa.ofMantissaAndAccuracy]⟩
    · have hhalf : 1 / 2 < (r : ℚ) / den := by
        rw [div_lt_div_iff₀ two_pos hden']
        exact_mod_cast (by omega : 1 * den < r * 2)
      have hone : (r : ℚ) / den < 1 := (div_lt_one hden').mpr hlt
      rw [Nat.compare_eq_gt.mpr hr]
      exact ⟨r / den - 1 / 2, by linarith, by linarith,
        iff_of_true rfl (by linarith : (r : ℚ) / den - 1 / 2 > 0).ne',
        by simp [ExtendedMantissa.ofMantissaAndAccuracy]⟩

/-! ### Signs -/

/-- A sign is applied by a factor of one or minus one. -/
theorem apply_eq_mul (s : Sign) (n : Nat) : ((s.apply n : Int) : ℚ) = (s.apply 1 : Int) * n := by
  cases s <;> simp [Sign.apply]

/-- That factor has the size one. -/
theorem abs_apply_one (s : Sign) : |((s.apply 1 : Int) : ℚ)| = 1 := by
  cases s <;> simp [Sign.apply]

/-- The factors of two signs multiply to that of their product. -/
theorem apply_mul_apply (s t : Sign) :
    ((s.apply 1 : Int) : ℚ) * (t.apply 1 : Int) = ((s * t).apply 1 : Int) := by
  cases s <;> cases t <;> simp [Sign.apply]

/-- The factor of the opposite sign is the opposite one. -/
theorem neg_apply_one (s : Sign) : ((-s).apply 1 : Int) = -(s.apply 1 : Int) := by
  cases s <;> simp [Sign.apply]

/-! ### Mantissas that fit -/

/-- A format has two digits at least. -/
theorem lt_mantissaBits (spec : Format) : 1 < spec.mantissaBits := by
  have := spec.hm
  rw [Format.mantissaBits]
  omega

/-- A rounded mantissa that fits is not shifted again. -/
theorem shiftToTargetExponent_of_lt (spec : Format) {r : Nat} {t : Int}
    (hr : r < 2 ^ spec.mantissaBits) (ht : spec.minExponent ≤ t) :
    shiftToTargetExponent spec r t .exact = (⟨r, false, false⟩, t) := by
  have hlog : r.log2 < spec.mantissaBits := by
    rcases Nat.eq_zero_or_pos r with rfl | hpos
    · rw [Nat.log2_zero]
      exact Nat.lt_of_succ_lt (lt_mantissaBits spec)
    · exact (Nat.log2_lt hpos.ne').mpr hr
  have hshift : (spec.targetExponent (totalExponent r t) - t).toNat = 0 := by
    rw [Format.targetExponent, totalExponent]
    omega
  rw [shiftToTargetExponent, shiftToExponent, hshift]
  exact Prod.ext rfl (by simp)

/-- A mantissa that was rounded up to one digit more is shifted by it. -/
theorem shiftToTargetExponent_two_pow (spec : Format) {t : Int} (ht : spec.minExponent ≤ t) :
    shiftToTargetExponent spec (2 ^ spec.mantissaBits) t .exact
      = (⟨2 ^ spec.mantissaBitsWithoutImplicit, false, false⟩, t + 1) := by
  have hshift : (spec.targetExponent (totalExponent (2 ^ spec.mantissaBits) t) - t).toNat = 1 := by
    rw [Format.targetExponent, totalExponent, Nat.log2_two_pow]
    omega
  have hdiv : 2 ^ spec.mantissaBits / 2 = 2 ^ spec.mantissaBitsWithoutImplicit := by
    rw [Format.mantissaBits, Nat.pow_add, Nat.pow_one, Nat.mul_div_cancel_left _ two_pos]
  have hmod : 2 ^ spec.mantissaBits % 2 = 0 := by
    rw [Format.mantissaBits, Nat.pow_add, Nat.pow_one, Nat.mul_mod_right]
  rw [shiftToTargetExponent, shiftToExponent, hshift]
  change (ExtendedMantissa.mk (2 ^ spec.mantissaBits / 2) (2 ^ spec.mantissaBits % 2 != 0)
    (false || false), _) = _
  rw [hdiv, hmod]
  rfl

/-- Shifting a rounded mantissa again makes it fit, and changes neither its number nor its count
among the numbers of the format. -/
theorem exists_shiftToTargetExponent (spec : Format) {r : Nat} {t : Int}
    (hle : r ≤ 2 ^ spec.mantissaBits) (hleast : spec.minExponent ≤ t)
    (hnormal : t = spec.minExponent ∨ 2 ^ spec.mantissaBitsWithoutImplicit ≤ r) :
    ∃ (m : Nat) (e : Int),
      shiftToTargetExponent spec r t .exact = (⟨m, false, false⟩, e) ∧
      m < 2 ^ spec.mantissaBits ∧ spec.minExponent ≤ e ∧
      (e = spec.minExponent ∨ 2 ^ spec.mantissaBitsWithoutImplicit ≤ m) ∧
      (m : ℚ) * 2 ^ e = r * 2 ^ t ∧
      (e - spec.minExponent).toNat * 2 ^ spec.mantissaBitsWithoutImplicit + m
        = (t - spec.minExponent).toNat * 2 ^ spec.mantissaBitsWithoutImplicit + r := by
  have hdouble : 2 ^ spec.mantissaBits = 2 * 2 ^ spec.mantissaBitsWithoutImplicit := by
    rw [Format.mantissaBits, Nat.pow_add, Nat.pow_one]
  -- Only a mantissa that was rounded up to one digit more has to be shifted.
  rcases hle.lt_or_eq with hlt | rfl
  · exact ⟨r, t, shiftToTargetExponent_of_lt spec hlt hleast, hlt, hleast, hnormal, rfl, rfl⟩
  · have hpos : 0 < 2 ^ spec.mantissaBitsWithoutImplicit := Nat.two_pow_pos _
    refine ⟨2 ^ spec.mantissaBitsWithoutImplicit, t + 1, shiftToTargetExponent_two_pow spec hleast,
      by omega, by omega, .inr le_rfl, ?_, ?_⟩
    · rw [hdouble, zpow_add_one₀ two_ne_zero]
      push_cast
      ring
    · rw [show (t + 1 - spec.minExponent).toNat = (t - spec.minExponent).toNat + 1 by omega,
        hdouble]
      ring

/-- The accuracy says what is behind the mantissa, and does not change it. -/
@[simp] theorem mantissa_ofMantissaAndAccuracy (m : Nat) (acc : Accuracy) :
    (ExtendedMantissa.ofMantissaAndAccuracy m acc).mantissa = m := by
  cases acc with
  | exact => rfl
  | inexact order => cases order <;> rfl

/-- The number is at least its mantissa, and below the next whole number. -/
theorem le_of_approximates {m : Nat} {acc : Accuracy} {x : ℚ}
    (hx : Approximates (.ofMantissaAndAccuracy m acc) x) : (m : ℚ) ≤ x ∧ x < m + 1 := by
  have hfloor : ⌊x⌋₊ = m := by rw [hx.floor, mantissa_ofMantissaAndAccuracy]
  rw [← hfloor]
  exact ⟨Nat.floor_le hx.nonneg, Nat.lt_floor_add_one x⟩

/-- Shifting to the exponent of the format leaves at most the digits of a mantissa, and all of
them unless the exponent is the least one. -/
theorem shifted_bounds (spec : Format) {m : Nat} {e : Int} {acc : Accuracy} {x : ℚ}
    (hx : Approximates (.ofMantissaAndAccuracy m acc) x)
    (he : e ≤ spec.targetExponent (totalExponent m e)) :
    let t := spec.targetExponent (totalExponent m e)
    x / 2 ^ (t - e).toNat < 2 ^ spec.mantissaBits ∧
      (t = spec.minExponent ∨
        2 ^ spec.mantissaBitsWithoutImplicit ≤ x / 2 ^ (t - e).toNat) := by
  intro t
  obtain ⟨hlow, hhigh⟩ := le_of_approximates hx
  -- The exponent is chosen so that the digits of the mantissa fit, but not below the least one.
  have ht : t = max ((m.log2 : Int) + 1 + e - spec.mantissaBits) spec.minExponent := rfl
  have hbits := lt_mantissaBits spec
  constructor
  · rw [div_lt_iff₀ (by positivity), ← pow_add]
    calc x < m + 1 := hhigh
      _ ≤ 2 ^ (m.log2 + 1) := by exact_mod_cast Nat.lt_log2_self
      _ ≤ 2 ^ (spec.mantissaBits + (t - e).toNat) :=
        pow_le_pow_right₀ one_le_two (by omega)
  · by_cases hleast : t = spec.minExponent
    · exact .inl hleast
    · right
      rw [le_div_iff₀ (by positivity), ← pow_add]
      have hm : m ≠ 0 := by
        rintro rfl
        rw [Nat.log2_zero] at ht
        omega
      calc (2 : ℚ) ^ (spec.mantissaBitsWithoutImplicit + (t - e).toNat) = 2 ^ m.log2 := by
            congr 1
            rw [Format.mantissaBits] at ht hbits
            omega
        _ ≤ m := by exact_mod_cast Nat.log2_self_le hm
        _ ≤ x := hlow

/-! ### Patterns -/

/-- The exponent field is the digits between the sign and the mantissa. -/
theorem toNat_unpackExponent {spec : Format} (b : BitVec spec.numBits) :
    (unpackExponent b).toNat
      = b.toNat / 2 ^ spec.mantissaBitsWithoutImplicit % 2 ^ spec.exponentBits := by
  rw [unpackExponent_def, BitVec.extractLsb'_toNat, Nat.shiftRight_eq_div_pow]

/-- The mantissa is the last digits of the pattern. -/
theorem toNat_unpackMantissa {spec : Format} (b : BitVec spec.numBits) :
    (unpackMantissa b).toNat = b.toNat % 2 ^ spec.mantissaBitsWithoutImplicit := by
  rw [unpackMantissa_def, BitVec.extractLsb'_toNat, Nat.shiftRight_zero]

/-- The sign is the first digit of the pattern. -/
theorem toNat_unpackSign {spec : Format} (b : BitVec spec.numBits) :
    (unpackSign b).toNat
      = b.toNat / 2 ^ (spec.mantissaBitsWithoutImplicit + spec.exponentBits) := by
  have hlt : b.toNat / 2 ^ (spec.mantissaBitsWithoutImplicit + spec.exponentBits) < 2 ^ 1 := by
    rw [Nat.div_lt_iff_lt_mul (Nat.two_pow_pos _), ← Nat.pow_add]
    exact b.isLt.trans_eq (congrArg (2 ^ ·) (by rw [Format.numBits]; omega))
  rw [unpackSign_def, BitVec.extractLsb'_toNat, Nat.shiftRight_eq_div_pow, Nat.mod_eq_of_lt hlt]

/-- A pattern is negative if its first digit is set. -/
theorem ofBitVec_unpackSign_eq {spec : Format} (b : BitVec spec.numBits) :
    Sign.ofBitVec (unpackSign b)
      = if 2 ^ (spec.mantissaBitsWithoutImplicit + spec.exponentBits) ≤ b.toNat then .negative
        else .positive := by
  have hzero : unpackSign b = 0#1
      ↔ ¬ 2 ^ (spec.mantissaBitsWithoutImplicit + spec.exponentBits) ≤ b.toNat := by
    rw [← BitVec.toNat_inj, toNat_unpackSign, BitVec.toNat_zero,
      Nat.div_eq_zero_iff_lt (Nat.two_pow_pos _), Nat.not_le]
  unfold Sign.ofBitVec
  split
  case isTrue h => rw [if_neg (hzero.mp h)]
  case isFalse h => rw [if_pos (Decidable.not_not.mp (mt hzero.mpr h))]

/-- The mantissa of a pattern, with the leading digit that is not stored. -/
def mantissaOf {spec : Format} (b : BitVec spec.numBits) : Nat :=
  (unpackMantissa b).toNat +
    if (unpackExponent b).toNat = 0 then 0 else 2 ^ spec.mantissaBitsWithoutImplicit

/-- The exponent of a pattern. -/
def exponentOf {spec : Format} (b : BitVec spec.numBits) : Int :=
  max (unpackExponent b).toNat 1 - (spec.exponentBias + spec.mantissaBitsWithoutImplicit : Nat)

/-- A pattern whose exponent is not the greatest one is unpacked to its sign, mantissa and
exponent. -/
theorem unpack_eq {spec : Format} {b : BitVec spec.numBits} (h : unpackExponent b ≠ -1#_) :
    UnpackedFloat.unpack spec b =
      if hzero : mantissaOf b = 0 then .zero (Sign.ofBitVec (unpackSign b))
      else .finite (Sign.ofBitVec (unpackSign b)) (mantissaOf b) (exponentOf b)
        (Nat.pos_of_ne_zero hzero) := by
  have hbottom : (unpackExponent b).toNat = 0 ↔ unpackExponent b = 0#_ := by
    rw [← BitVec.toNat_inj, BitVec.toNat_zero]
  unfold UnpackedFloat.unpack mantissaOf exponentOf
  dsimp only
  rw [if_neg h]
  split
  case isTrue hexponent =>
    -- Zero and the subnormal numbers have no leading digit.
    have hfield := hbottom.mpr hexponent
    simp only [hfield, if_true, Nat.add_zero]
    have hempty : (unpackMantissa b).toNat = 0 ↔ unpackMantissa b = 0#_ := by
      rw [← BitVec.toNat_inj, BitVec.toNat_zero]
    split
    case isTrue hmantissa => rw [dif_pos (hempty.mpr hmantissa)]
    case isFalse hmantissa =>
      rw [dif_neg (mt hempty.mp hmantissa), UnpackedFloat.finite.injEq]
      refine ⟨rfl, rfl, ?_⟩
      push_cast
      omega
  case isFalse hexponent =>
    -- The leading digit is put in front of the stored ones.
    have hfield := mt hbottom.mp hexponent
    have hpos : 0 < 2 ^ spec.mantissaBitsWithoutImplicit := Nat.two_pow_pos _
    simp only [hfield, if_false]
    rw [dif_neg (by omega), UnpackedFloat.finite.injEq]
    refine ⟨rfl, ?_, ?_⟩
    · rw [BitVec.toNat_append, ← Nat.shiftLeft_add_eq_or_of_lt (BitVec.isLt _), Nat.add_comm]
      simp [Nat.shiftLeft_eq]
    · push_cast
      omega

/-- A pattern whose exponent is the greatest one is not finite. -/
theorem isFinite_unpack_of_top {spec : Format} {b : BitVec spec.numBits}
    (h : unpackExponent b = -1#_) : (UnpackedFloat.unpack spec b).isFinite = false := by
  unfold UnpackedFloat.unpack
  dsimp only
  rw [if_pos h]
  split <;> rfl

/-- The least exponent goes with the exponent fields zero and one. -/
theorem minExponent_add (spec : Format) :
    spec.minExponent + spec.exponentBias + spec.mantissaBitsWithoutImplicit = 1 := by
  have hpos : 1 ≤ 2 ^ (spec.exponentBits - 1) := Nat.one_le_two_pow
  rw [Format.minExponent, Format.exponentBias, Format.mantissaBits, Nat.cast_sub hpos]
  push_cast
  ring

/-- A packed number that is not too large does not have the greatest exponent field. -/
theorem unpackExponent_ne_top {spec : Format} {s : Sign} {field : Nat}
    (h : field + 1 < 2 ^ spec.exponentBits) (m : BitVec spec.mantissaBitsWithoutImplicit) :
    unpackExponent (packComponents spec s (BitVec.ofNat _ field) m) ≠ -1#_ := by
  rw [unpackExponent_packComponents, ne_eq, ← BitVec.toNat_inj, BitVec.toNat_ofNat,
    BitVec.neg_one_eq_allOnes, BitVec.toNat_allOnes, Nat.mod_eq_of_lt (by omega)]
  omega

/-- A pattern that is made of an exponent and a mantissa has these. -/
theorem unpack_packComponents {spec : Format} (s : Sign) {field m : Nat}
    (h : field + 1 < 2 ^ spec.exponentBits) (hpos : 0 < m)
    (hm : m % 2 ^ spec.mantissaBitsWithoutImplicit
      + (if field = 0 then 0 else 2 ^ spec.mantissaBitsWithoutImplicit) = m) :
    UnpackedFloat.unpack spec (packComponents spec s (BitVec.ofNat _ field) (BitVec.ofNat _ m))
      = .finite s m (max field 1 - (spec.exponentBias + spec.mantissaBitsWithoutImplicit : Nat))
        hpos := by
  have hfield : (unpackExponent (packComponents spec s (BitVec.ofNat _ field)
      (BitVec.ofNat _ m))).toNat = field := by
    rw [unpackExponent_packComponents, BitVec.toNat_ofNat, Nat.mod_eq_of_lt (by omega)]
  have hmantissa : mantissaOf (packComponents spec s (BitVec.ofNat _ field) (BitVec.ofNat _ m))
      = m := by
    rw [mantissaOf, hfield, unpackMantissa_packComponents, BitVec.toNat_ofNat, hm]
  rw [unpack_eq (unpackExponent_ne_top h _), dif_neg (by omega), UnpackedFloat.finite.injEq]
  refine ⟨?_, hmantissa, ?_⟩
  · rw [unpackSign_packComponents, Sign.ofBitVec_toBitVec]
  · rw [exponentOf, hfield]

/-- A rounded number that is packed and unpacked is the same as before, if its exponent is not
too large. -/
theorem unpack_pack {spec : Format} {s : Sign} {m : Nat} {e : Int} (hpos : 0 < m)
    (hlt : m < 2 ^ spec.mantissaBits) (hleast : spec.minExponent ≤ e)
    (hnormal : e = spec.minExponent ∨ 2 ^ spec.mantissaBitsWithoutImplicit ≤ m)
    (hlarge : e + spec.exponentBias + spec.mantissaBitsWithoutImplicit + 1
      < 2 ^ spec.exponentBits) :
    UnpackedFloat.unpack spec (UnpackedFloat.pack spec (.finite s m e hpos))
      = .finite s m e hpos := by
  have hmin := minExponent_add spec
  obtain ⟨field, hfield⟩ : ∃ field : Nat,
      e + spec.exponentBias + spec.mantissaBitsWithoutImplicit = field :=
    Int.eq_ofNat_of_zero_le (by omega)
  have hsmall : field + 1 < 2 ^ spec.exponentBits := by
    rw [hfield] at hlarge
    exact_mod_cast hlarge
  have hlog : m.log2 + 1 = spec.mantissaBits ↔ 2 ^ spec.mantissaBitsWithoutImplicit ≤ m := by
    rw [Format.mantissaBits] at hlt
    rw [Format.mantissaBits, Nat.add_comm 1, Nat.add_right_cancel_iff, Nat.log2_eq_iff hpos.ne',
      Nat.add_comm]
    exact and_iff_left hlt
  rw [Format.mantissaBits, Nat.pow_add, Nat.pow_one] at hlt
  rw [UnpackedFloat.pack, hfield, Int.toNat_natCast, if_neg (Nat.not_le.mpr hsmall)]
  by_cases hfull : 2 ^ spec.mantissaBitsWithoutImplicit ≤ m
  · -- The leading digit is not stored.
    have hdigits : m % 2 ^ spec.mantissaBitsWithoutImplicit
        = m - 2 ^ spec.mantissaBitsWithoutImplicit := by
      rw [Nat.mod_eq_sub_mod hfull, Nat.mod_eq_of_lt (by omega)]
    rw [if_pos (hlog.mpr hfull), unpack_packComponents s hsmall hpos
      (by rw [hdigits, if_neg (by omega)]; omega), UnpackedFloat.finite.injEq]
    exact ⟨rfl, rfl, by omega⟩
  · have hleastExponent := hnormal.resolve_right hfull
    rw [if_neg (mt hlog.mp hfull), unpack_packComponents s (by omega) hpos
      (by rw [Nat.mod_eq_of_lt (by omega), if_pos rfl, Nat.add_zero]), UnpackedFloat.finite.injEq]
    exact ⟨rfl, rfl, by omega⟩

/-- Unpacking loses nothing but the payload of a NaN. -/
theorem pack_unpack_of_ne_top {spec : Format} (hbits : 2 ≤ spec.exponentBits)
    {b : BitVec spec.numBits} (h : unpackExponent b ≠ -1#_) :
    UnpackedFloat.pack spec (UnpackedFloat.unpack spec b) = b := by
  have hnumber : ¬ isNaNBits b = true := fun hnan => h (of_decide_eq_true hnan).1
  rw [pack_unpack b hbits, if_neg hnumber]

/-! ### Numbers of a format -/

/-- The unpacked number is rounded to a format, and stands for a rational number. -/
inductive StandsFor (spec : Format) : UnpackedFloat → ℚ → Prop
  | zero (s : Sign) : StandsFor spec (.zero s) 0
  | finite {s : Sign} {m : Nat} {e : Int} (hpos : 0 < m) (hlt : m < 2 ^ spec.mantissaBits)
      (hleast : spec.minExponent ≤ e)
      (hnormal : e = spec.minExponent ∨ 2 ^ spec.mantissaBitsWithoutImplicit ≤ m) :
      StandsFor spec (.finite s m e hpos) ((s.apply 1 : Int) * (m * 2 ^ e))

/-- How far the rounded number is from the exact one at most: half a spacing. -/
def slack (spec : Format) (y : ℚ) : ℚ :=
  |y| / 2 ^ spec.mantissaBits + 2 ^ (spec.minExponent - 1)

/-- The unpacked number is a rational number, but for rounding once. -/
def Rounds (spec : Format) (f : UnpackedFloat) (y : ℚ) : Prop :=
  ∃ z, StandsFor spec f z ∧ |z - y| ≤ slack spec y

/-- There is always some room for rounding. -/
theorem slack_pos (spec : Format) (y : ℚ) : 0 < slack spec y := by
  unfold slack
  positivity

/-- A number of the format is rounded to itself. -/
theorem StandsFor.rounds {spec : Format} {f : UnpackedFloat} {y : ℚ} (h : StandsFor spec f y) :
    Rounds spec f y :=
  ⟨y, h, by rw [sub_self, abs_zero]; exact (slack_pos spec y).le⟩

/-- Rounding at the spacing of the format changes half a spacing at most. -/
theorem abs_roundEven_mul_sub_le (spec : Format) {y : ℚ} (hy : 0 ≤ y) {t : Int}
    (hfull : t = spec.minExponent ∨ 2 ^ spec.mantissaBitsWithoutImplicit ≤ y) :
    |(roundEven y : ℚ) * 2 ^ t - y * 2 ^ t| ≤ slack spec (y * 2 ^ t) := by
  have hspacing : (0 : ℚ) < 2 ^ t := by positivity
  rw [slack, abs_of_nonneg (mul_nonneg hy hspacing.le)]
  have hhalf : |(roundEven y : ℚ) * 2 ^ t - y * 2 ^ t| ≤ 2 ^ t / 2 := by
    rw [← sub_mul, abs_mul, abs_of_pos hspacing]
    calc |(roundEven y : ℚ) - y| * 2 ^ t ≤ 1 / 2 * 2 ^ t := by gcongr; exact abs_roundEven_sub_le hy
      _ = 2 ^ t / 2 := by ring
  refine hhalf.trans ?_
  -- At the least exponent half a spacing is the absolute part of the slack, and above it the
  -- relative one covers it.
  rcases hfull with rfl | hfull
  · have hrest : 0 ≤ y * 2 ^ spec.minExponent / 2 ^ spec.mantissaBits := by positivity
    rw [zpow_sub_one₀ two_ne_zero, ← div_eq_mul_inv]
    linarith
  · have hrest : (0 : ℚ) < 2 ^ (spec.minExponent - 1) := by positivity
    calc (2 : ℚ) ^ t / 2
        = 2 ^ spec.mantissaBitsWithoutImplicit * 2 ^ t / 2 ^ spec.mantissaBits := by
          rw [Format.mantissaBits, pow_add]
          field_simp
      _ ≤ y * 2 ^ t / 2 ^ spec.mantissaBits := by gcongr
      _ ≤ _ := le_add_of_nonneg_right hrest.le

/-- The sign of a number does not matter to rounding. -/
theorem abs_apply_sub_le (spec : Format) (s : Sign) {z y : ℚ} (h : |z - y| ≤ slack spec y) :
    |((s.apply 1 : Int) : ℚ) * z - (s.apply 1 : Int) * y| ≤ slack spec ((s.apply 1 : Int) * y) := by
  rwa [← mul_sub, abs_mul, slack, abs_mul, abs_apply_one, one_mul, one_mul]

/-- Shifting and rounding leads to a number of the format, half a spacing away at most. -/
theorem rounds_roundWithAccuracy (spec : Format) (s : Sign) {m : Nat} {e : Int} {acc : Accuracy}
    {x : ℚ} (hx : Approximates (.ofMantissaAndAccuracy m acc) x)
    (he : e ≤ spec.targetExponent (totalExponent m e)) :
    Rounds spec (roundWithAccuracy spec s m e acc) ((s.apply 1 : Int) * (x * 2 ^ e)) := by
  obtain ⟨hhigh, hfull⟩ := shifted_bounds spec hx he
  have hleast : spec.minExponent ≤ spec.targetExponent (totalExponent m e) := le_max_right _ _
  have hrounded :=
    (hx.shiftRight (spec.targetExponent (totalExponent m e) - e).toNat).roundedMantissa
  rw [roundWithAccuracy, shiftToTargetExponent, shiftToExponent]
  generalize spec.targetExponent (totalExponent m e) = t at *
  dsimp only
  rw [hrounded, Int.toNat_of_nonneg (by omega), add_sub_cancel]
  have hnonneg : 0 ≤ x / 2 ^ (t - e).toNat := div_nonneg hx.nonneg (by positivity)
  have hvalue : x / 2 ^ (t - e).toNat * 2 ^ t = x * 2 ^ e := by
    rw [← zpow_natCast, Int.toNat_of_nonneg (by omega), zpow_sub₀ two_ne_zero]
    field_simp
  generalize x / 2 ^ (t - e).toNat = y at *
  -- Rounding can lead to one digit more, which the second shift takes back.
  obtain ⟨m', e', hshift, hm', he', hnormal', hvalue', -⟩ :=
    exists_shiftToTargetExponent spec (roundEven_le_of_lt hnonneg (by exact_mod_cast hhigh)) hleast
      (hfull.imp_right fun h => le_roundEven (by exact_mod_cast h))
  have hslack := abs_apply_sub_le spec s (abs_roundEven_mul_sub_le spec hnonneg hfull)
  rw [hvalue, ← hvalue'] at hslack
  rw [hshift]
  dsimp only
  split
  case isTrue hzero =>
    rw [hzero, Nat.cast_zero, zero_mul, mul_zero] at hslack
    exact ⟨0, .zero s, hslack⟩
  case isFalse hne => exact ⟨_, .finite _ hm' he' hnormal', hslack⟩

/-! ### Operations -/

variable {spec : Format} {f g : UnpackedFloat} {x y : ℚ}

/-- A mantissa that is rounded gets all the digits of the format before that. -/
theorem exists_round_eq (spec : Format) (s : Sign) {m : Nat} (hm : m ≠ 0) (e : Int) :
    ∃ (m' : Nat) (e' : Int),
      UnpackedFloat.round spec s m e = roundWithAccuracy spec s m' e' .exact ∧
      e' ≤ spec.targetExponent (totalExponent m' e') ∧ (m' : ℚ) * 2 ^ e' = m * 2 ^ e := by
  generalize ht : spec.targetExponent (totalExponent m e) = t
  generalize hk : (e - t).toNat = k
  refine ⟨m <<< k, e - k, ?_, ?_, ?_⟩
  · rw [UnpackedFloat.round, decreaseExponent, ht, hk]
  · -- The leading digit stays where it is.
    have htotal : totalExponent (m <<< k) (e - k) = totalExponent m e := by
      rw [totalExponent, totalExponent, Nat.shiftLeft_eq, log2_mul_two_pow hm]
      omega
    rw [htotal, ht]
    omega
  · rw [Nat.shiftLeft_eq, Nat.cast_mul, Nat.cast_pow, Nat.cast_two, mul_assoc, ← zpow_natCast,
      ← zpow_add₀ two_ne_zero, add_sub_cancel]

/-- Normalizing splits a mantissa into its sign and its size. -/
theorem exists_normalize_eq (spec : Format) {m : Int} (hm : m ≠ 0) (e : Int) (zeroSign : Sign) :
    ∃ s : Sign, UnpackedFloat.normalize spec m e zeroSign = UnpackedFloat.round spec s m.natAbs e ∧
      s.apply m.natAbs = m := by
  unfold UnpackedFloat.normalize
  rcases lt_or_gt_of_ne hm with hneg | hpos
  · rw [Int.compare_eq_lt.mpr hneg, show (-m).toNat = m.natAbs by omega]
    exact ⟨.negative, rfl, by simp only [Sign.apply]; omega⟩
  · rw [Int.compare_eq_gt.mpr hpos, show m.toNat = m.natAbs by omega]
    exact ⟨.positive, rfl, by simp only [Sign.apply]; omega⟩

/-- Normalizing rounds once, whether the number is zero, positive or negative. -/
theorem rounds_normalize (spec : Format) (m e : Int) :
    Rounds spec (UnpackedFloat.normalize spec m e .positive) (m * 2 ^ e) := by
  by_cases hm : m = 0
  · rw [hm, Int.cast_zero, zero_mul]
    exact (StandsFor.zero .positive).rounds
  · obtain ⟨s, hnormalize, hs⟩ := exists_normalize_eq spec hm e .positive
    obtain ⟨m', e', hround, he, hvalue⟩ :=
      exists_round_eq spec s (Int.natAbs_ne_zero.mpr hm) e
    have hexact : (m : ℚ) * 2 ^ e = (s.apply 1 : Int) * (m' * 2 ^ e') := by
      rw [hvalue, ← mul_assoc, ← apply_eq_mul, hs]
    rw [hnormalize, hround, hexact]
    exact rounds_roundWithAccuracy spec s (approximates_exact _) he

/-- A mantissa that is moved to a lower exponent stands for the same number. -/
theorem apply_shiftLeft_mul (s : Sign) (m : Nat) {e low : Int} (h : low ≤ e) :
    ((s.apply (m <<< (e - low).toNat : Nat) : Int) : ℚ) * 2 ^ low
      = (s.apply 1 : Int) * (m * 2 ^ e) := by
  rw [apply_eq_mul, Nat.shiftLeft_eq, Nat.cast_mul, Nat.cast_pow, Nat.cast_two, mul_assoc,
    mul_assoc, ← zpow_natCast, ← zpow_add₀ two_ne_zero]
  congr 3
  omega

/-- A sum is rounded once. -/
theorem StandsFor.rounds_add (hf : StandsFor spec f x) (hg : StandsFor spec g y) :
    Rounds spec (UnpackedFloat.add spec f g) (x + y) := by
  cases hf with
  | zero s =>
    rw [zero_add]
    cases hg with
    | zero t =>
      rw [UnpackedFloat.add]
      split
      · exact (StandsFor.zero s).rounds
      · exact (StandsFor.zero .positive).rounds
    | finite hpos hlt hleast hnormal => exact (StandsFor.finite hpos hlt hleast hnormal).rounds
  | @finite s m e hpos hlt hleast hnormal =>
    cases hg with
    | zero t =>
      rw [add_zero]
      exact (StandsFor.finite hpos hlt hleast hnormal).rounds
    | @finite s' m' e' hpos' hlt' hleast' hnormal' =>
      -- Both mantissas are moved to the lower exponent and added up.
      rw [UnpackedFloat.add]
      dsimp only [decreaseExponent]
      rw [← apply_shiftLeft_mul s m (min_le_left e e'),
        ← apply_shiftLeft_mul s' m' (min_le_right e e'), ← add_mul, ← Int.cast_add]
      exact rounds_normalize spec _ _

/-- The opposite of a number of the format is one, too. -/
theorem StandsFor.neg (hf : StandsFor spec f x) : StandsFor spec (UnpackedFloat.neg f) (-x) := by
  cases hf with
  | zero s =>
    rw [neg_zero]
    exact .zero (-s)
  | @finite s m e hpos hlt hleast hnormal =>
    rw [← neg_mul, ← Int.cast_neg, ← neg_apply_one]
    exact .finite hpos hlt hleast hnormal

/-- A difference is the sum with the opposite number. -/
theorem unpackedSub_eq_add_neg (spec : Format) (f g : UnpackedFloat) :
    UnpackedFloat.sub spec f g = UnpackedFloat.add spec f (UnpackedFloat.neg g) := by
  have happly (s : Sign) (n m : Int) : n - s.apply m = n + (-s).apply m := by
    cases s
    · exact sub_neg_eq_add n m
    · exact sub_eq_add_neg n m
  cases f <;> cases g <;> try rfl
  -- What is left are two finite numbers, whose mantissas are taken from each other.
  case finite.finite s₁ m₁ e₁ _ s₂ m₂ e₂ _ =>
    simp only [UnpackedFloat.sub, UnpackedFloat.add, UnpackedFloat.neg, happly]

/-- A difference is rounded once. -/
theorem StandsFor.rounds_sub (hf : StandsFor spec f x) (hg : StandsFor spec g y) :
    Rounds spec (UnpackedFloat.sub spec f g) (x - y) := by
  rw [unpackedSub_eq_add_neg, sub_eq_add_neg]
  exact hf.rounds_add hg.neg

/-- The least exponent of a format is not positive. -/
theorem minExponent_nonpos (spec : Format) : spec.minExponent ≤ 0 := by
  have := lt_mantissaBits spec
  have : (1 : Int) ≤ 2 ^ (spec.exponentBits - 1) := by exact_mod_cast Nat.one_le_two_pow
  rw [Format.minExponent]
  omega

/-- A product has enough digits to round, or is below the least exponent. -/
theorem le_targetExponent_mul {m m' : Nat} {e e' : Int} (hpos : 0 < m) (hpos' : 0 < m')
    (hnormal : e = spec.minExponent ∨ 2 ^ spec.mantissaBitsWithoutImplicit ≤ m)
    (hnormal' : e' = spec.minExponent ∨ 2 ^ spec.mantissaBitsWithoutImplicit ≤ m') :
    e + e' ≤ spec.targetExponent (totalExponent (m * m') (e + e')) := by
  have hmin := minExponent_nonpos spec
  have hfull (h : 2 ^ spec.mantissaBitsWithoutImplicit ≤ m * m') :
      e + e' ≤ spec.targetExponent (totalExponent (m * m') (e + e')) := by
    have hlog := (Nat.le_log2 (Nat.mul_pos hpos hpos').ne').mpr h
    rw [Format.targetExponent, totalExponent, Format.mantissaBits]
    omega
  rcases hnormal with rfl | h
  · rcases hnormal' with rfl | h'
    · exact (add_le_of_nonpos_right hmin).trans (le_max_right _ _)
    · exact hfull (h'.trans (Nat.le_mul_of_pos_left m' hpos))
  · exact hfull (h.trans (Nat.le_mul_of_pos_right m hpos'))

/-- A product is rounded once. -/
theorem StandsFor.rounds_mul (hf : StandsFor spec f x) (hg : StandsFor spec g y) :
    Rounds spec (UnpackedFloat.mul spec f g) (x * y) := by
  cases hf with
  | zero s =>
    rw [zero_mul]
    cases hg with
    | zero t => exact (StandsFor.zero (s * t)).rounds
    | @finite t _ _ _ _ _ _ => exact (StandsFor.zero (s * t)).rounds
  | @finite s m e hpos hlt hleast hnormal =>
    cases hg with
    | zero t =>
      rw [mul_zero]
      exact (StandsFor.zero (s * t)).rounds
    | @finite s' m' e' hpos' hlt' hleast' hnormal' =>
      -- The exact product, as a sign, a mantissa and an exponent.
      have hvalue : ((s.apply 1 : Int) : ℚ) * (m * 2 ^ e) * ((s'.apply 1 : Int) * (m' * 2 ^ e'))
          = ((s * s').apply 1 : Int) * ((m * m' : Nat) * 2 ^ (e + e')) := by
        rw [← apply_mul_apply, zpow_add₀ two_ne_zero]
        push_cast
        ring
      rw [UnpackedFloat.mul, hvalue]
      exact rounds_roundWithAccuracy spec _ (approximates_exact _)
        (le_targetExponent_mul hpos hpos' hnormal hnormal')

end Battlemap
