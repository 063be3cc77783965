import Battlemap.Number.Double

/-!
# `Battlemap.Number.Decimal`: decimal text of numbers

A decimal is a signed coefficient times a power of ten. `readNumeral`
reads the form that settings and options are written in; `toSingle`
rounds the exact value once. The same module writes singles back: as
the fewest digits that identify the number among all singles, or with a
fixed count of places.

The digits of the shortest form are found on exact integers. A number
`m · 2 ^ q` owns all reals up to halfway to its neighbours, both ends
included when `m` is even. Going from coarse to fine powers of ten, the
first grid with a point among them wins; of the two grid points next to
the number the nearer is taken, and the upper one on a tie.
-/

set_option autoImplicit false

namespace Battlemap

/-- The number `± digits · 10 ^ exponent`. -/
structure Decimal where
  negative : Bool
  digits : Nat
  exponent : Int
deriving DecidableEq, Repr

namespace Decimal

/-- The magnitude bits of the nearest number of a binary format. The
two shortcuts keep the powers of ten small: a positive coefficient with
a large exponent overflows every format, and one far below the least
magnitude rounds to zero. -/
def nearest (format : BinaryFormat) (d : Decimal) : Nat :=
  if d.digits = 0 then 0
  else if 400 < d.exponent then format.infinity
  else if d.exponent + d.digits.log2 < -400 then 0
  else format.nearest (d.digits * Nat.pow 10 d.exponent.toNat) (Nat.pow 10 (-d.exponent).toNat)

/-- The nearest single, with the decimal's sign. -/
def toSingle (d : Decimal) : Single :=
  let positive : Single := ⟨(d.nearest .single).toUInt32⟩
  if d.negative then -positive else positive

/-- The nearest double, with the decimal's sign. -/
def toDouble (d : Decimal) : Float :=
  let positive := Float.ofBits (d.nearest .double).toUInt64
  if d.negative then -positive else positive

end Decimal

/-- What the text of a number can stand for. -/
inductive Numeral where
  | finite (decimal : Decimal)
  | infinite (negative : Bool)
  | notANumber
deriving DecidableEq, Repr

namespace Numeral

/-- The nearest single. -/
def toSingle : Numeral → Single
  | finite d => d.toSingle
  | infinite negative => if negative then .negInfinity else .infinity
  | notANumber => .nan

end Numeral

/-! ### Reading -/

namespace Decimal

/-- The value of a string of decimal digits. -/
def ofDigits (digits : List Char) : Nat :=
  digits.foldl (fun n c => 10 * n + (c.toNat - '0'.toNat)) 0

/-- The leading decimal digits and the rest. -/
def spanDigits (text : List Char) : List Char × List Char :=
  text.span Char.isDigit

/-- A sign, if the text starts with one, and the rest; the flag says
whether it is a minus. -/
def splitSign : List Char → Bool × List Char
  | '-' :: rest => (true, rest)
  | '+' :: rest => (false, rest)
  | text => (false, text)

/-- An exponent part that fills the whole text: nothing, or an `e` with
an optional sign and at least one digit. -/
def readExponent : List Char → Option Int
  | [] => some 0
  | c :: rest =>
    if c = 'e' ∨ c = 'E' then
      let (negative, rest) := splitSign rest
      let (digits, rest) := spanDigits rest
      if digits.isEmpty || !rest.isEmpty then none
      else some (if negative then -(ofDigits digits : Int) else ofDigits digits)
    else none

/-- An unsigned decimal that fills the whole text: digits with at most
one point among or beside them, and an optional exponent. -/
def readUnsigned (negative : Bool) (text : List Char) : Option Decimal :=
  let (whole, rest) := spanDigits text
  let (fraction, rest) :=
    match rest with
    | '.' :: rest => spanDigits rest
    | rest => ([], rest)
  if whole.isEmpty && fraction.isEmpty then none
  else
    (readExponent rest).map fun exponent =>
      ⟨negative, ofDigits (whole ++ fraction), exponent - fraction.length⟩

end Decimal

/-- Reads the text of a number: an optional sign and then `inf`,
`infinity` or `nan` in any case, or a decimal. Nothing may surround it. -/
def readNumeral (text : String) : Option Numeral :=
  let (negative, rest) := Decimal.splitSign text.toList
  match String.ofList (rest.map Char.toLower) with
  | "inf" | "infinity" => some (.infinite negative)
  | "nan" => some .notANumber
  | _ => (Decimal.readUnsigned negative rest).map .finite

/-- Reads a single. -/
def Single.read? (text : String) : Option Single :=
  (readNumeral text).map Numeral.toSingle

/-- Reads digits with an optional sign as an integer in `[low, high]`. A
minus is refused where no negative number is allowed. -/
def readIntWithin (low high : Int) (text : String) : Option Int :=
  let (negative, digits) := Decimal.splitSign text.toList
  if digits.isEmpty || !digits.all Char.isDigit || (negative && decide (0 ≤ low)) then none
  else
    let size : Int := Decimal.ofDigits digits
    let value := if negative then -size else size
    if low ≤ value ∧ value ≤ high then some value else none

/-- Reads an unsigned 32-bit integer. -/
def readUInt32 (text : String) : Option UInt32 :=
  (readIntWithin 0 (UInt32.size - 1) text).map fun n => n.toNat.toUInt32

/-- Reads a signed 32-bit integer. -/
def readInt32 (text : String) : Option Int32 :=
  (readIntWithin Int32.minValue.toInt Int32.maxValue.toInt text).map Int32.ofInt

/-! ### Writing -/

namespace Decimal

/-- The decimal in positional notation, with one digit at least on
either side of a point, and a point only for a negative exponent. -/
def positional (d : Decimal) : String :=
  let digits := (Nat.toDigits 10 d.digits)
  let sign := if d.negative then "-" else ""
  if 0 ≤ d.exponent then
    sign ++ String.ofList digits ++ (if d.digits = 0 then "" else "".pushn '0' d.exponent.toNat)
  else
    let places := (-d.exponent).toNat
    let padded := List.replicate (places + 1 - digits.length) '0' ++ digits
    let split := padded.length - places
    sign ++ String.ofList (padded.take split) ++ "." ++ String.ofList (padded.drop split)

/-- The decimal as one leading digit, the others behind a point, and
the power of ten. -/
def scientific (d : Decimal) : String :=
  let digits := Nat.toDigits 10 d.digits
  let rest := digits.drop 1
  let sign := if d.negative then "-" else ""
  let point := if rest.isEmpty then "" else "."
  sign ++ String.ofList (digits.take 1) ++ point ++ String.ofList rest
    ++ "e" ++ toString (d.exponent + rest.length)

end Decimal

namespace Single

/-- The multiple of `spacing` to write for `value`, if one lies between
`value - below` and `value + above`. Zero is no candidate. -/
def gridPoint (value below above spacing : Nat) (closed : Bool) : Option Nat :=
  let low := value / spacing
  let rest := value % spacing
  let within (distance reach : Nat) : Bool :=
    if closed then distance ≤ reach else distance < reach
  let lowFits := low != 0 && within rest below
  let highFits := within (spacing - rest) above
  if highFits && (!lowFits || decide (spacing ≤ 2 * rest)) then some (low + 1)
  else if lowFits then some low
  else none

/-- The coarsest grid `10 ^ power`, from the given power downwards, with
a point that identifies `significand · 2 ^ exponent`. Lengths are
counted in quarters of the spacing of singles around the number, where
halfway to the next number above is two; it is one to the number below
where the spacing changes. -/
def shortestFrom (significand : Nat) (exponent : Int) : Nat → Int → Nat × Int
  | 0, power => (significand, power)
  | steps + 1, power =>
    let quarter := Nat.pow 2 (exponent - 2).toNat * Nat.pow 10 (-power).toNat
    let spacing := Nat.pow 10 power.toNat * Nat.pow 2 (2 - exponent).toNat
    let below := if significand = 8388608 then 1 else 2
    match gridPoint (4 * significand * quarter) (below * quarter) (2 * quarter) spacing
        (significand % 2 == 0) with
    | some n => (n, power)
    | none => shortestFrom significand exponent steps (power - 1)

/-- The decimal with the fewest digits that rounds to a finite number.
Nine digits always suffice, so the search passes a grid that is coarser
than the number, one for each digit count, and some to spare for the
estimate of its length. -/
def shortest (a : Single) : Decimal :=
  if a.significand = 0 then ⟨a.signBit, 0, 0⟩
  else
    let length : Int := (a.significand.log2 + a.exponent) * 30103 / 100000
    let (digits, power) := shortestFrom a.significand a.exponent 16 (length + 2)
    ⟨a.signBit, digits, power⟩

/-- The text of an infinity or NaN, and otherwise what `finite` writes. -/
def textWith (finite : Decimal → String) (a : Single) : String :=
  if a.isNaN then "NaN"
  else if !a.isFinite then if a.signBit then "-inf" else "inf"
  else finite a.shortest

/-- A number in a message: always positional, without a point if it is
whole. -/
def plainText (a : Single) : String :=
  a.textWith Decimal.positional

/-- A number as a component of a vector: whole numbers keep a point, and
magnitudes from `10 ^ 16` up or below `10 ^ -4` are written with a power
of ten. -/
def componentText (a : Single) : String :=
  a.textWith fun d =>
    let leading := d.exponent + (Nat.toDigits 10 d.digits).length
    if d.digits != 0 && (decide (leading ≤ -4) || decide (17 ≤ leading)) then d.scientific
    else if 0 ≤ d.exponent then d.positional ++ ".0"
    else d.positional

/-- A number with a fixed count of places, a tie going to the even last
digit. -/
def fixedText (places : Nat) (a : Single) : String :=
  a.textWith fun _ =>
    let digits := BinaryFormat.roundQuotient
      (a.significand * Nat.pow 2 a.exponent.toNat * Nat.pow 10 places)
      (Nat.pow 2 (-a.exponent).toNat)
    Decimal.positional ⟨a.signBit, digits, -places⟩

end Single

end Battlemap
