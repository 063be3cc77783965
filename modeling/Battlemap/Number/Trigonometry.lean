import Battlemap.Number.Double

/-!
# `Battlemap.Number.Trigonometry`: sine and cosine of singles

The argument is reduced to a rest within an eighth of a turn and a
count of quarter turns, and one of two polynomials in double precision
is evaluated at the rest; the count says which one and with which sign.
Small arguments are already reduced, arguments below 120 are reduced by
one multiplication and subtraction, and all larger ones by multiplying
the significand with the part of `4 / π` that its exponent selects,
modulo whole turns.

The result is rounded to single only at the end, so it is within a
little more than half a unit of the exact sine or cosine.
-/

set_option autoImplicit false

namespace Battlemap

namespace Trigonometry

/-! ### Polynomials -/

/-- The sine of `x`, for `x` within an eighth of a turn; `square` is
`x * x`. -/
def sinPolynomial (x square : Float) : Float :=
  let cube := x * square
  let high := Float.ofBits 0x3f81107605230bc4 + square * Float.ofBits 0xbf2994eb3774cf24
  let low := x + cube * Float.ofBits 0xbfc555545995a603
  low + cube * square * high

/-- The cosine, by the square of its argument. -/
def cosPolynomial (square : Float) : Float :=
  let fourth := square * square
  let high := Float.ofBits 0xbf56c087e89a359d + square * Float.ofBits 0x3ef99343027bf8c3
  let low := Float.ofBits 0x3ff0000000000000 + square * Float.ofBits 0xbfdffffffd0c621c
  let middle := low + fourth * Float.ofBits 0x3fa55553e1068f19
  middle + fourth * square * high

/-! ### Reduction -/

/-- An argument split into `quarters` quarter turns and a rest. -/
structure Reduced where
  rest : Float
  quarters : Nat

/-- Half of `π`, as a double. -/
def halfPi : Float := Float.ofBits 0x3ff921fb54442d18

/-- Reduction of arguments below 120: the quarter turns are counted in
units of `2 ^ -24` and rounded to the nearest whole one. -/
def reduceModerate (x : Float) : Reduced :=
  let scaled := Double.wholePart (x * Float.ofBits 0x41645f306dc9c883)
  let quarters := (scaled + 8388608) / 16777216
  ⟨x - Double.ofInt quarters * halfPi, (quarters % 4).toNat⟩

/-- The leading bits of `4 / π`, 32 at a time from every eighth bit
position on. -/
def fourOverPi : List UInt32 :=
  [0xa2, 0xa2f9, 0xa2f983, 0xa2f9836e, 0xf9836e4e, 0x836e4e44, 0x6e4e4415, 0x4e441529,
   0x441529fc, 0x1529fc27, 0x29fc2757, 0xfc2757d1, 0x2757d1f5, 0x57d1f534, 0xd1f534dd,
   0xf534ddc0, 0x34ddc0db, 0xddc0db62, 0xc0db6295, 0xdb629599, 0x6295993c, 0x95993c43,
   0x993c4390, 0x3c439041]

/-- Reduction of large arguments by their bit pattern: the product of
the significand with 96 selected bits of `4 / π`, of which the top two
bits count quarter turns. The sign of the argument is left out. -/
def reduceLarge (bits : UInt32) : Reduced :=
  let start := ((bits >>> 26) &&& 15).toNat
  let significand := ((bits &&& 0xffffff) ||| 0x800000) <<< ((bits >>> 23) &&& 7)
  let part (i : Nat) : UInt32 := fourOverPi.getD (start + i) 0
  let top := (significand * part 0).toUInt64
  let middle := significand.toUInt64 * (part 4).toUInt64
  let bottom := significand.toUInt64 * (part 8).toUInt64
  let product := ((bottom >>> 32) ||| (top <<< 32)) + middle
  let quarters := (product + ((1 : UInt64) <<< 61)) >>> 62
  let rest := (product - (quarters <<< 62)).toInt64.toInt
  ⟨Double.ofInt rest * Float.ofBits 0x3c1921fb54442d18, quarters.toNat⟩

/-- The sine of the rest plus `turn` quarter turns, where `swapped` says
whether the cosine polynomial carries it. -/
def evaluate (rest : Float) (turn : Nat) (swapped : Bool) : Float :=
  let square := rest * rest
  if swapped then
    let c := cosPolynomial square
    if turn % 4 < 2 then c else -c
  else if turn % 4 = 0 ∨ turn % 4 = 3 then sinPolynomial rest square
  else sinPolynomial (-rest) square

/-- Sine for `shift = 0` and cosine for `shift = 1` of a finite single
that is not tiny. -/
def wave (shift : Nat) (a : Single) : Single :=
  let x := a.toDouble
  let size := a.magnitude >>> 20
  if size < 0x3f4 then
    Single.ofDouble (evaluate x 0 (shift == 1))
  else if size < 0x42f then
    let reduced := reduceModerate x
    Single.ofDouble
      (evaluate reduced.rest reduced.quarters ((reduced.quarters + shift) % 2 == 1))
  else
    let reduced := reduceLarge a.bits
    let turn := reduced.quarters + (if a.signBit then 1 else 0)
    Single.ofDouble (evaluate reduced.rest turn ((reduced.quarters + shift) % 2 == 1))

end Trigonometry

namespace Single

/-- The sine of an angle in radians; tiny angles are their own sine. -/
def sin (a : Single) : Single :=
  if !a.isFinite then nan
  else if a.magnitude >>> 20 < 0x398 then a
  else Trigonometry.wave 0 a

/-- The cosine of an angle in radians; that of a tiny angle is one. -/
def cos (a : Single) : Single :=
  if !a.isFinite then nan
  else if a.magnitude >>> 20 < 0x398 then one
  else Trigonometry.wave 1 a

/-- An angle in degrees, in radians. -/
def toRadians (a : Single) : Single := a * ⟨0x3c8efa35⟩

end Single

end Battlemap
