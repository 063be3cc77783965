import Battlemap.Number.Integral
import Battlemap.Proofs.Number.Unpacked

/-!
# `Battlemap.Proofs.Number.Pattern`: bit patterns and what the hardware sees in them

The hardware is described by the standard library's model of it: a single
is unpacked to a sign, a mantissa and an exponent, the operation is done
on these, and the result is packed again. `Single.unpacked` and
`Single.ofUnpacked` are these two steps.

`Single.Has` says which sign and which magnitude a single has. A finite
single is unpacked to its sign, significand and exponent
(`unpacked_of_isFinite`); a rounded number is packed to the count of its
magnitude (`has_ofUnpacked_finite`); and what is not finite stays so
(`isFinite_unpacked_eq_false`, `isFinite_ofUnpacked_eq_false`).
-/

set_option autoImplicit false

namespace Battlemap

open Float.Model Float.Model.UnpackedFloat

/-! ### Patterns and their fields -/

namespace Single

/-- The magnitude is the pattern without its first bit. -/
theorem toNat_magnitude (a : Single) : a.magnitude.toNat = a.bits.toNat % 2 ^ 31 := by
  rw [magnitude, UInt32.toNat_and]
  exact Nat.and_two_pow_sub_one_eq_mod _ 31

/-- The first bit of the pattern is the sign. -/
theorem signBit_eq_true_iff {a : Single} : a.signBit = true ↔ 2 ^ 31 ≤ a.bits.toNat := by
  have hlt := a.bits.toNat_lt
  rw [signBit, bne_iff_ne, ne_eq, ← UInt32.toNat_inj, UInt32.toNat_and,
    show (0x80000000 : UInt32).toNat = 2 ^ 31 from rfl, Nat.and_two_pow,
    Nat.testBit_eq_decide_div_mod_eq]
  simp
  omega

/-- The next eight bits are the exponent field. -/
theorem exponentField_eq (a : Single) : a.exponentField = a.bits.toNat / 2 ^ 23 % 2 ^ 8 := by
  rw [exponentField, UInt32.toNat_shiftRight, toNat_magnitude,
    show (23 : UInt32).toNat % 32 = 23 from rfl, Nat.shiftRight_eq_div_pow]
  omega

/-- The other bits are the significand, with one more in front unless the exponent field is
zero. -/
theorem significand_eq (a : Single) :
    a.significand = a.bits.toNat % 2 ^ 23 + if a.exponentField = 0 then 0 else 2 ^ 23 := by
  have hfraction : (a.magnitude &&& 0x7fffff).toNat = a.bits.toNat % 2 ^ 23 := by
    rw [UInt32.toNat_and, toNat_magnitude, show (0x7fffff : UInt32).toNat = 2 ^ 23 - 1 from rfl,
      Nat.and_two_pow_sub_one_eq_mod]
    omega
  rw [significand, hfraction]
  split <;> omega

/-- A single is finite unless its exponent field is the greatest one. -/
theorem isFinite_iff {a : Single} : a.isFinite = true ↔ a.exponentField < 255 := by
  rw [isFinite, decide_eq_true_eq, UInt32.lt_iff_toNat_lt, toNat_magnitude, exponentField_eq,
    show (0x7f800000 : UInt32).toNat = 255 * 2 ^ 23 from rfl]
  omega

/-- The magnitudes up to that of infinity are those of numbers. -/
theorem isNaN_eq_false_iff {a : Single} : a.isNaN = false ↔ a.magnitude.toNat ≤ 255 * 2 ^ 23 := by
  rw [isNaN, decide_eq_false_iff_not, UInt32.not_lt, UInt32.le_iff_toNat_le]
  rfl

/-- What is finite is a number. -/
theorem isNaN_of_isFinite {a : Single} (h : a.isFinite = true) : a.isNaN = false := by
  rw [isFinite_iff, exponentField_eq] at h
  rw [isNaN_eq_false_iff, toNat_magnitude]
  omega

/-- The magnitude counts the doublings and the significand. -/
theorem toNat_magnitude_eq (a : Single) :
    a.magnitude.toNat = (a.exponentField - 1) * 2 ^ 23 + a.significand := by
  rw [toNat_magnitude, significand_eq, exponentField_eq]
  split <;> omega

/-- A significand has at most 24 digits. -/
theorem significand_lt (a : Single) : a.significand < 2 ^ 24 := by
  rw [significand_eq]
  split <;> omega

/-- A significand has all of its digits unless the exponent is the least one. -/
theorem two_pow_le_significand {a : Single} (h : a.exponentField - 1 ≠ 0) :
    2 ^ 23 ≤ a.significand := by
  rw [significand_eq, if_neg (by omega)]
  omega

end Single

/-! ### Unpacked numbers -/

/-- A pattern is its sign, exponent and mantissa, one behind the other. -/
theorem toNat_packComponents (s : Sign) (e : BitVec 8) (m : BitVec 23) :
    (packComponents Format.binary32 s e m).toNat =
      (s.toBitVec.toNat * 2 ^ 8 + e.toNat) * 2 ^ 23 + m.toNat := by
  unfold packComponents
  rw [BitVec.toNat_append, BitVec.toNat_append, ← Nat.shiftLeft_add_eq_or_of_lt m.isLt,
    ← Nat.shiftLeft_add_eq_or_of_lt e.isLt, Nat.shiftLeft_eq, Nat.shiftLeft_eq]

namespace Single

/-- The number as the hardware sees it. -/
def unpacked (a : Single) : UnpackedFloat := a.value.toModel.unpack

/-- The single that the hardware makes of a rounded number. -/
def ofUnpacked (f : UnpackedFloat) : Single := ofValue ⟨Float32.Model.pack f⟩

/-- The sum of singles is the rounded sum of what they are unpacked to. -/
theorem add_eq (a b : Single) :
    a + b = ofUnpacked (UnpackedFloat.add Format.binary32 a.unpacked b.unpacked) := rfl

/-- Their quotient is the rounded quotient. -/
theorem div_eq (a b : Single) :
    a / b = ofUnpacked (UnpackedFloat.div Format.binary32 a.unpacked b.unpacked) := rfl

/-- The sign of a number. -/
def sign (a : Single) : Sign := if a.signBit then .negative else .positive

/-- A single with a sign and a magnitude. -/
structure Has (a : Single) (s : Sign) (count : Nat) : Prop where
  sign : a.sign = s
  magnitude : a.magnitude.toNat = count

/-- A single is known by its sign and its magnitude. -/
theorem ext_of_has {a b : Single} {s : Sign} {count : Nat} (ha : a.Has s count)
    (hb : b.Has s count) : a = b := by
  have halt := a.bits.toNat_lt
  have hblt := b.bits.toNat_lt
  have hmagnitude := ha.magnitude.trans hb.magnitude.symm
  have hsign : a.signBit = true ↔ b.signBit = true := by
    have h := ha.sign.trans hb.sign.symm
    unfold sign at h
    cases hasign : a.signBit <;> cases hbsign : b.signBit <;> simp [hasign, hbsign] at h ⊢
  rw [toNat_magnitude, toNat_magnitude] at hmagnitude
  rw [signBit_eq_true_iff, signBit_eq_true_iff] at hsign
  have hbits : a.bits = b.bits := UInt32.toNat_inj.mp (by omega)
  cases a
  cases b
  exact congrArg Single.mk hbits

/-- A packed single has the sign and the magnitude that were put together. -/
theorem has_packComponents {s : Sign} {e : BitVec 8} {m : BitVec 23} :
    Has ⟨UInt32.ofBitVec (packComponents Format.binary32 s e m)⟩ s
      (e.toNat * 2 ^ 23 + m.toNat) := by
  have he := e.isLt
  have hm := m.isLt
  have hbits : (UInt32.ofBitVec (packComponents Format.binary32 s e m)).toNat =
      (s.toBitVec.toNat * 2 ^ 8 + e.toNat) * 2 ^ 23 + m.toNat := toNat_packComponents s e m
  constructor
  · have hiff := signBit_eq_true_iff
      (a := ⟨UInt32.ofBitVec (packComponents Format.binary32 s e m)⟩)
    rw [hbits] at hiff
    unfold sign
    cases s with
    | negative => rw [if_pos (hiff.mpr (by simp [Sign.toBitVec]; omega))]
    | positive => rw [if_neg (mt hiff.mp (by simp [Sign.toBitVec]; omega))]
  · rw [toNat_magnitude]
    change (UInt32.ofBitVec (packComponents Format.binary32 s e m)).toNat % 2 ^ 31 = _
    rw [hbits]
    omega

/-- A packed zero has the magnitude zero. -/
theorem has_ofUnpacked_zero (s : Sign) : (ofUnpacked (.zero s)).Has s 0 :=
  has_packComponents

/-- A packed infinity has the magnitude behind the last finite one. -/
theorem has_ofUnpacked_infinity (s : Sign) : (ofUnpacked (.infinity s)).Has s (255 * 2 ^ 23) :=
  has_packComponents

/-- A rounded number is packed to the count of its magnitude, or to infinity
if that is too large. -/
theorem has_ofUnpacked_finite {s : Sign} {m : Nat} {e : Int} (hpos : 0 < m) (hm : m < 2 ^ 24)
    (he : -149 ≤ e) (hnormal : e = -149 ∨ 2 ^ 23 ≤ m) :
    (ofUnpacked (.finite s m e hpos)).Has s
      (min ((e + 149).toNat * 2 ^ 23 + m) (255 * 2 ^ 23)) := by
  have hlog : m.log2 + 1 = Format.binary32.mantissaBits ↔ 2 ^ 23 ≤ m := by
    rw [show Format.binary32.mantissaBits = 23 + 1 from rfl, Nat.add_right_cancel_iff,
      Nat.log2_eq_iff hpos.ne']
    exact and_iff_left hm
  have hbias : (e + (Format.binary32.exponentBias : Int)
      + (Format.binary32.mantissaBitsWithoutImplicit : Int)).toNat = (e + 149).toNat + 1 := by
    simp only [Format.exponentBias]
    omega
  have hpack : ofUnpacked (.finite s m e hpos)
      = ⟨UInt32.ofBitVec (UnpackedFloat.pack Format.binary32 (.finite s m e hpos))⟩ := rfl
  rw [hpack, UnpackedFloat.pack, hbias]
  dsimp only
  by_cases hlarge : 2 ^ Format.binary32.exponentBits ≤ (e + 149).toNat + 1 + 1
  · -- Too large: the exponent is that of infinity.
    have hcount := has_ofUnpacked_infinity s
    rw [if_pos hlarge]
    rwa [show 255 * 2 ^ 23 = min ((e + 149).toNat * 2 ^ 23 + m) (255 * 2 ^ 23) by
      dsimp only [Format.binary32] at hlarge; omega] at hcount
  · rw [if_neg hlarge]
    dsimp only [Format.binary32] at hlarge
    by_cases hfull : 2 ^ 23 ≤ m
    · -- The leading bit of a normal mantissa is not stored.
      have hcount := has_packComponents (s := s) (e := BitVec.ofNat 8 ((e + 149).toNat + 1))
        (m := BitVec.ofNat 23 m)
      rw [if_pos (hlog.mpr hfull)]
      rw [BitVec.toNat_ofNat, BitVec.toNat_ofNat] at hcount
      rwa [show ((e + 149).toNat + 1) % 2 ^ 8 * 2 ^ 23 + m % 2 ^ 23
        = min ((e + 149).toNat * 2 ^ 23 + m) (255 * 2 ^ 23) by omega] at hcount
    · -- A subnormal mantissa is stored whole, under the exponent zero.
      have hcount := has_packComponents (s := s) (e := 0#8) (m := BitVec.ofNat 23 m)
      rw [if_neg (mt hlog.mp hfull)]
      rw [BitVec.toNat_ofNat, BitVec.toNat_ofNat] at hcount
      rwa [show 0 % 2 ^ 8 * 2 ^ 23 + m % 2 ^ 23
        = min ((e + 149).toNat * 2 ^ 23 + m) (255 * 2 ^ 23) by omega] at hcount

/-- The hardware and the pattern agree on the sign. -/
theorem ofBitVec_unpackSign (a : Single) :
    Sign.ofBitVec (@unpackSign Format.binary32 a.bits.toBitVec) = a.sign := by
  rw [ofBitVec_unpackSign_eq, sign]
  exact if_congr signBit_eq_true_iff.symm rfl rfl

/-- The greatest exponent is that of no finite single. -/
theorem unpackExponent_ne_top_of_isFinite {a : Single} (h : a.isFinite = true) :
    @unpackExponent Format.binary32 a.bits.toBitVec ≠ -1#_ := by
  rw [ne_eq, ← BitVec.toNat_inj, toNat_unpackExponent]
  rw [isFinite_iff, exponentField_eq] at h
  exact h.ne

/-- A finite single is unpacked to its sign, significand and exponent. -/
theorem unpack_of_isFinite {a : Single} (h : a.isFinite = true) :
    UnpackedFloat.unpack Format.binary32 a.bits.toBitVec =
      if hzero : a.significand = 0 then .zero a.sign
      else .finite a.sign a.significand a.exponent (Nat.pos_of_ne_zero hzero) := by
  have hfield : (@unpackExponent Format.binary32 a.bits.toBitVec).toNat
      = a.exponentField := (toNat_unpackExponent _).trans (exponentField_eq a).symm
  have hmantissa : @mantissaOf Format.binary32 a.bits.toBitVec = a.significand := by
    rw [mantissaOf, hfield, toNat_unpackMantissa, significand_eq]
    rfl
  have hexponent : @exponentOf Format.binary32 a.bits.toBitVec = a.exponent := by
    rw [exponentOf, hfield, exponent, Nat.cast_max]
    rfl
  rw [unpack_eq (unpackExponent_ne_top_of_isFinite h)]
  simp only [hmantissa, hexponent, ofBitVec_unpackSign]

/-- Packing a finite single that was unpacked gives it back. -/
theorem ofUnpacked_unpack {a : Single} (h : a.isFinite = true) :
    ofUnpacked (UnpackedFloat.unpack Format.binary32 a.bits.toBitVec) = a :=
  congrArg (fun b => Single.mk (UInt32.ofBitVec b))
    (pack_unpack_of_ne_top (by decide) (unpackExponent_ne_top_of_isFinite h))

/-- What the hardware sees of a finite single. -/
theorem unpacked_of_isFinite {a : Single} (h : a.isFinite = true) :
    a.unpacked = if hzero : a.significand = 0 then .zero a.sign
      else .finite a.sign a.significand a.exponent (Nat.pos_of_ne_zero hzero) := by
  rw [← unpack_of_isFinite h]
  change UnpackedFloat.unpack Format.binary32
    (ofUnpacked (UnpackedFloat.unpack Format.binary32 a.bits.toBitVec)).bits.toBitVec = _
  rw [ofUnpacked_unpack h]

/-! ### What is not finite -/

/-- From the magnitude of infinity on nothing is finite. -/
theorem isFinite_eq_false_of_has {a : Single} {s : Sign} {count : Nat} (h : a.Has s count)
    (hcount : 255 * 2 ^ 23 ≤ count) : a.isFinite = false := by
  rw [isFinite, decide_eq_false_iff_not, UInt32.lt_iff_toNat_lt, h.magnitude]
  exact Nat.not_lt.mpr hcount

/-- Packing makes nothing finite. -/
theorem isFinite_ofUnpacked_eq_false {f : UnpackedFloat} (h : f.isFinite = false) :
    (ofUnpacked f).isFinite = false := by
  cases f with
  | infinity s => exact isFinite_eq_false_of_has (has_ofUnpacked_infinity s) le_rfl
  | notANumber => exact isFinite_eq_false_of_has has_packComponents (Nat.le_add_right _ _)
  | zero => cases h
  | finite => cases h

/-- Neither does unpacking a pattern. -/
theorem isFinite_unpack_eq_false {a : Single} (h : a.isFinite = false) :
    (UnpackedFloat.unpack Format.binary32 a.bits.toBitVec).isFinite = false := by
  have hfield := mt isFinite_iff.mpr (Bool.eq_false_iff.mp h)
  rw [exponentField_eq] at hfield
  refine isFinite_unpack_of_top ?_
  rw [← BitVec.toNat_inj, toNat_unpackExponent]
  change a.bits.toNat / 2 ^ 23 % 2 ^ 8 = 255
  omega

/-- Neither does unpacking a single. -/
theorem isFinite_unpacked_eq_false {a : Single} (h : a.isFinite = false) :
    a.unpacked.isFinite = false :=
  isFinite_unpack_eq_false (isFinite_ofUnpacked_eq_false (isFinite_unpack_eq_false h))

end Single

end Battlemap
