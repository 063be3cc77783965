import Battlemap.Number.Single

/-!
# `Battlemap.Number.Integral`: whole numbers among the singles

A finite number is `± significand · 2 ^ exponent` with natural
significand. Floor, ceiling, rounding and truncation all split the
significand into a whole part and a remainder of `2 ^ -exponent`; they
differ only in when the remainder carries the magnitude one up. The
sign is kept, so a number between `-1` and `0` rounds up to `-0`.

Conversions to machine integers truncate and then clamp to the range of
the integer type, and send NaN to zero.
-/

set_option autoImplicit false

namespace Battlemap

namespace Single

/-- The exponent field of the pattern. -/
def exponentField (a : Single) : Nat := (a.magnitude >>> 23).toNat

/-- The significand of a finite number, hidden bit included. -/
def significand (a : Single) : Nat :=
  let fraction := (a.magnitude &&& 0x7fffff).toNat
  if a.exponentField = 0 then fraction else 8388608 + fraction

/-- The power of two that the significand of a finite number counts. -/
def exponent (a : Single) : Int :=
  (max a.exponentField 1 : Int) - 150

/-- The number with the given sign and the whole magnitude `n`, which
is exact for `n ≤ 2 ^ 24`. -/
def ofWhole (negative : Bool) (n : Nat) : Single :=
  let positive := ofUInt64 n.toUInt64
  if negative then -positive else positive

/-- The whole number next to `a` towards zero, or one further from zero
where `carry` holds of the remainder and its denominator. Infinities,
NaNs and numbers too large to have a fractional part stay. -/
def toWhole (carry : Nat → Nat → Bool) (a : Single) : Single :=
  if a.isFinite && decide (a.exponent < 0) then
    let unit := Nat.pow 2 (-a.exponent).toNat
    let whole := a.significand / unit
    let rest := a.significand % unit
    ofWhole a.signBit (if carry rest unit then whole + 1 else whole)
  else a

/-- The greatest whole number not above `a`. -/
def floor (a : Single) : Single :=
  a.toWhole fun rest _ => a.signBit && rest != 0

/-- The least whole number not below `a`. -/
def ceil (a : Single) : Single :=
  a.toWhole fun rest _ => !a.signBit && rest != 0

/-- The nearest whole number, a tie going away from zero. -/
def round (a : Single) : Single :=
  a.toWhole fun rest unit => decide (unit ≤ 2 * rest)

/-- The magnitude of a finite number, cut to its whole part. -/
def wholeMagnitude (a : Single) : Nat :=
  if 0 ≤ a.exponent then a.significand * Nat.pow 2 a.exponent.toNat
  else a.significand / Nat.pow 2 (-a.exponent).toNat

/-- The whole part of `a` clamped into `[low, high]`, an infinity going
to the nearer end and NaN to zero. -/
def toIntWithin (low high : Int) (a : Single) : Int :=
  if a.isNaN then 0
  else if a.isFinite then
    let whole : Int := if a.signBit then -(a.wholeMagnitude : Int) else a.wholeMagnitude
    max low (min high whole)
  else if a.signBit then low else high

/-- The whole part of `a` as a signed 64-bit integer. -/
def toInt64 (a : Single) : Int64 :=
  Int64.ofInt (a.toIntWithin Int64.minValue.toInt Int64.maxValue.toInt)

/-- The whole part of `a` as an unsigned 64-bit integer. -/
def toUInt64 (a : Single) : UInt64 :=
  (a.toIntWithin 0 (UInt64.size - 1)).toNat.toUInt64

end Single

end Battlemap
