import Battlemap.Number.Integral

/-!
# `Battlemap.Number.Double`: between singles and doubles

Statistics and plane fits are summed in 64-bit numbers, which are the
hardware's. Going up is exact, because every single is a significand
times a power of two that a double holds; going down rounds to the
nearest single, once, from the exact value of the double.
-/

set_option autoImplicit false

namespace Battlemap

namespace Double

/-- The power of two with the given exponent, for exponents of normal
doubles. -/
def twoPow (exponent : Int) : Float :=
  Float.ofBits ((exponent + 1023).toNat.toUInt64 <<< 52)

/-- The pattern without its sign bit. -/
def magnitude (x : Float) : UInt64 := x.toBits &&& 0x7fffffffffffffff

/-- Whether the sign bit is set. -/
def signBit (x : Float) : Bool := x.toBits &&& 0x8000000000000000 != 0

/-- The significand of a finite double, hidden bit included. -/
def significand (x : Float) : Nat :=
  let fraction := (magnitude x &&& 0xfffffffffffff).toNat
  if magnitude x >>> 52 = 0 then fraction else 4503599627370496 + fraction

/-- The power of two that the significand of a finite double counts. -/
def exponent (x : Float) : Int :=
  (max (magnitude x >>> 52).toNat 1 : Int) - 1075

/-- The whole part of a finite double. -/
def wholePart (x : Float) : Int :=
  let whole : Nat :=
    if 0 ≤ exponent x then significand x * Nat.pow 2 (exponent x).toNat
    else significand x / Nat.pow 2 (-exponent x).toNat
  if signBit x then -(whole : Int) else whole

/-- The double nearest to an integer below `2 ^ 64` in magnitude. -/
def ofInt (n : Int) : Float :=
  let size := n.natAbs.toUInt64.toFloat
  if n < 0 then -size else size

/-- The double nearest to `num / den`. -/
def ofRatio (num den : Nat) : Float :=
  Float.ofBits (BinaryFormat.double.nearest num den).toUInt64

/-- Whether the double is infinite. -/
def isInfinite (x : Float) : Bool := magnitude x == 0x7ff0000000000000

end Double

namespace Single

/-- The same number as a double. -/
def toDouble (a : Single) : Float :=
  let size :=
    if a.isFinite then a.significand.toUInt64.toFloat * Double.twoPow a.exponent
    else if a.isNaN then Float.ofBits 0x7ff8000000000000
    else Float.ofBits 0x7ff0000000000000
  if a.signBit then -size else size

/-- The single with the given sign nearest to `num / den`. -/
def ofRatio (negative : Bool) (num den : Nat) : Single :=
  let positive : Single := ⟨(BinaryFormat.single.nearest num den).toUInt32⟩
  if negative then -positive else positive

/-- The single nearest to a double; what is too large becomes infinite
and NaN stays NaN. -/
def ofDouble (x : Float) : Single :=
  if 0x7ff0000000000000 < Double.magnitude x then nan
  else if Double.isInfinite x then if Double.signBit x then negInfinity else infinity
  else
    ofRatio (Double.signBit x)
      (Double.significand x * Nat.pow 2 (Double.exponent x).toNat)
      (Nat.pow 2 (-Double.exponent x).toNat)

/-- The single nearest to an integer below `2 ^ 64` in magnitude. -/
def ofInt (n : Int) : Single :=
  let size := ofUInt64 n.natAbs.toUInt64
  if n < 0 then -size else size

end Single

end Battlemap
