import Battlemap.Number.Format

/-!
# `Battlemap.Number.Single`: 32-bit floating point numbers

A `Single` is its bit pattern. Map files store the pattern as it
stands, NaN payloads and infinite sentinels included, so two numbers
are equal exactly when they are stored alike, and equality of records
is decided by comparing words.

Arithmetic is the hardware's: every operation rounds its exact result
to the nearest number. Everything that only inspects a number (sign,
class, order, minimum and maximum) is read off the pattern. The order
comes from `rank`, the signed count of numbers between zero and the
given one; both zeros have rank zero, and a NaN is below, above and
equal to nothing.
-/

set_option autoImplicit false

namespace Battlemap

/-- A 32-bit floating point number, given by its bit pattern. -/
structure Single where
  bits : UInt32
deriving DecidableEq, Repr

namespace Single

instance : Inhabited Single := ⟨⟨0⟩⟩

/-! ### Named numbers -/

/-- Zero, with a positive sign. -/
def zero : Single := ⟨0⟩

/-- One. -/
def one : Single := ⟨0x3f800000⟩

/-- One half. -/
def half : Single := ⟨0x3f000000⟩

/-- Positive infinity: the height of a level without a roof. -/
def infinity : Single := ⟨0x7f800000⟩

/-- Negative infinity. -/
def negInfinity : Single := ⟨0xff800000⟩

/-- The NaN that marks a missing plane. -/
def nan : Single := ⟨0x7fc00000⟩

/-! ### Sign and class -/

/-- The pattern without its sign bit. -/
def magnitude (a : Single) : UInt32 := a.bits &&& 0x7fffffff

/-- Whether the sign bit is set, which also holds of `-0` and of some
NaNs. -/
def signBit (a : Single) : Bool := a.bits &&& 0x80000000 != 0

/-- Whether the pattern stands for no number at all. -/
def isNaN (a : Single) : Bool := 0x7f800000 < a.magnitude

/-- Whether the number is neither infinite nor NaN. -/
def isFinite (a : Single) : Bool := a.magnitude < 0x7f800000

/-- The same number without its sign. -/
def abs (a : Single) : Single := ⟨a.magnitude⟩

/-- The same number with the opposite sign, also for zeros and NaNs. -/
def neg (a : Single) : Single := ⟨a.bits ^^^ 0x80000000⟩

instance : Neg Single := ⟨neg⟩

/-! ### Arithmetic -/

/-- The number as a hardware value. -/
def value (a : Single) : Float32 := Float32.ofBits a.bits

/-- The pattern of a hardware value. -/
def ofValue (x : Float32) : Single := ⟨x.toBits⟩

/-- The sum, rounded to nearest. -/
def add (a b : Single) : Single := ofValue (a.value + b.value)

/-- The difference, rounded to nearest. -/
def sub (a b : Single) : Single := ofValue (a.value - b.value)

/-- The product, rounded to nearest. -/
def mul (a b : Single) : Single := ofValue (a.value * b.value)

/-- The quotient, rounded to nearest. -/
def div (a b : Single) : Single := ofValue (a.value / b.value)

/-- The square root, rounded to nearest; NaN below zero. -/
def sqrt (a : Single) : Single := ofValue a.value.sqrt

instance : Add Single := ⟨add⟩
instance : Sub Single := ⟨sub⟩
instance : Mul Single := ⟨mul⟩
instance : Div Single := ⟨div⟩

/-- The number nearest to a natural number below `2 ^ 64`. -/
def ofUInt64 (n : UInt64) : Single := ofValue n.toFloat32

/-- The number nearest to a natural number below `2 ^ 32`. -/
def ofUInt32 (n : UInt32) : Single := ofValue n.toFloat32

/-! ### Order -/

/-- How many representable numbers lie between zero and this one,
counted downwards for a negative number. Both zeros have rank zero. -/
def rank (a : Single) : Int :=
  if a.signBit then -(a.magnitude.toNat : Int) else a.magnitude.toNat

/-- The order of numbers; it holds of no NaN. -/
protected def Lt (a b : Single) : Prop :=
  a.isNaN = false ∧ b.isNaN = false ∧ a.rank < b.rank

/-- The reflexive order of numbers; it holds of no NaN. -/
protected def Le (a b : Single) : Prop :=
  a.isNaN = false ∧ b.isNaN = false ∧ a.rank ≤ b.rank

instance : LT Single := ⟨Single.Lt⟩
instance : LE Single := ⟨Single.Le⟩

instance (a b : Single) : Decidable (a < b) :=
  inferInstanceAs (Decidable (a.isNaN = false ∧ b.isNaN = false ∧ a.rank < b.rank))

instance (a b : Single) : Decidable (a ≤ b) :=
  inferInstanceAs (Decidable (a.isNaN = false ∧ b.isNaN = false ∧ a.rank ≤ b.rank))

/-- Whether two patterns stand for the same number: `0` and `-0` do,
two NaNs do not. -/
def sameNumber (a b : Single) : Bool :=
  !a.isNaN && !b.isNaN && a.rank == b.rank

/-- The lesser of two numbers, the second of two equal ones, and the
other one if either is NaN. -/
protected def min (a b : Single) : Single :=
  if b.isNaN then a else if a < b then a else b

/-- The greater of two numbers, the second of two equal ones, and the
other one if either is NaN. -/
protected def max (a b : Single) : Single :=
  if b.isNaN then a else if b < a then a else b

/-- The number moved into `[low, high]`; a NaN stays. -/
def clamp (a low high : Single) : Single :=
  if a < low then low else if high < a then high else a

/-- The key of the order that places every pattern, `-0` directly below
`0` and the NaNs at the two ends. -/
def totalKey (a : Single) : Int :=
  if a.signBit then -(a.magnitude.toNat : Int) - 1 else a.magnitude.toNat

end Single

end Battlemap
