/-!
# `Battlemap.Number.Format`: rounding a ratio to a binary format

A binary interchange format stores a sign, an exponent field and a
fraction field. Read as one natural number, the two fields of a
magnitude count the representable magnitudes from zero upwards, so
rounding is a question about natural numbers only: which count is
nearest to a given ratio. `nearest` answers it exactly, in integer
arithmetic, with ties going to the even count. Everything that has to
turn an exact value into a float goes through it: decimal text, a
narrowing conversion, a power of ten.
-/

set_option autoImplicit false

namespace Battlemap

/-- A binary interchange format, by the widths of its two magnitude
fields. -/
structure BinaryFormat where
  fractionBits : Nat
  exponentBits : Nat
deriving DecidableEq, Repr

namespace BinaryFormat

/-- The 32-bit format. -/
def single : BinaryFormat := ⟨23, 8⟩

/-- The 64-bit format. -/
def double : BinaryFormat := ⟨52, 11⟩

/-- The exponent field that marks infinities and NaNs. -/
def topExponent (format : BinaryFormat) : Nat :=
  Nat.pow 2 format.exponentBits - 1

/-- The magnitude bits of infinity: the first pattern above every
finite magnitude. -/
def infinity (format : BinaryFormat) : Nat :=
  format.topExponent * Nat.pow 2 format.fractionBits

/-- The exponent of the smallest positive magnitude, which is also the
spacing of the subnormal numbers. -/
def leastExponent (format : BinaryFormat) : Int :=
  2 - (Nat.pow 2 (format.exponentBits - 1) : Int) - (format.fractionBits : Int)

/-- The quotient `num / den` rounded to the nearest natural number, a
tie going to the even neighbour. -/
def roundQuotient (num den : Nat) : Nat :=
  let quotient := num / den
  let remainder := num % den
  if 2 * remainder < den then quotient
  else if den < 2 * remainder then quotient + 1
  else quotient + quotient % 2

/-- The largest `e` with `2 ^ e ≤ num / den`, for positive `num` and
`den`. The difference of the two lengths is off by at most one. -/
def floorLog2 (num den : Nat) : Int :=
  let guess : Int := (num.log2 : Int) - den.log2
  if num * Nat.pow 2 (-guess).toNat < den * Nat.pow 2 guess.toNat then guess - 1 else guess

/-- The magnitude bits of the representable magnitude nearest to
`num / den`, a tie going to the even pattern and everything beyond the
last finite magnitude to infinity. A carry out of the fraction field
moves into the exponent field by itself, which is why the count is
formed by one addition. -/
def nearest (format : BinaryFormat) (num den : Nat) : Nat :=
  if num = 0 ∨ den = 0 then 0
  else
    let spacing := max (floorLog2 num den - format.fractionBits) format.leastExponent
    let count := roundQuotient (num * Nat.pow 2 (-spacing).toNat) (den * Nat.pow 2 spacing.toNat)
    let binade := (spacing - format.leastExponent).toNat
    min (binade * Nat.pow 2 format.fractionBits + count) format.infinity

end BinaryFormat

end Battlemap
