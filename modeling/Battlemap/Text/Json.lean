import Battlemap.Number.Decimal

/-!
# `Battlemap.Text.Json`: JSON text

A reader for strict JSON. It keeps what the text says where a value of
Lean would say less: numbers by their digits, because their type is
decided by whoever asks for them; the fields of an object in order and
with repetitions; and strings that escape half of a surrogate pair,
which no text can hold, as `none`. Such a string is an error only for a
reader that needs its text.
-/

set_option autoImplicit false

namespace Battlemap

/-- A number by its parts. Only `whole` is never empty. -/
structure JsonNumber where
  negative : Bool
  whole : List Char
  /-- The digits behind the point, if there is one. -/
  fraction : Option (List Char)
  /-- Sign and digits of the power of ten, if there is one. -/
  exponent : Option (Bool × List Char)
deriving DecidableEq, Repr

/-- A JSON value. -/
inductive Json where
  | null
  | bool (value : Bool)
  | number (number : JsonNumber)
  | string (text : Option String)
  | array (items : List Json)
  | object (fields : List (Option String × Json))

namespace Json

/-! ### Reading -/

/-- The text behind white space. -/
def skipSpace (text : List Char) : List Char :=
  text.dropWhile fun c => c = ' ' || c = '\n' || c = '\t' || c = '\r'

/-- The value of four hexadecimal digits, and the rest. -/
def readCodeUnit : List Char → Option (Nat × List Char)
  | a :: b :: c :: d :: rest => do
    let digit (c : Char) : Option Nat :=
      if c.isDigit then some (c.toNat - '0'.toNat)
      else if 'a' ≤ c ∧ c ≤ 'f' then some (c.toNat - 'a'.toNat + 10)
      else if 'A' ≤ c ∧ c ≤ 'F' then some (c.toNat - 'A'.toNat + 10)
      else none
    return (0x1000 * (← digit a) + 0x100 * (← digit b) + 0x10 * (← digit c) + (← digit d), rest)
  | _ => none

/-- The character of a one-letter escape. -/
def simpleEscape (c : Char) : Option Char :=
  if c = '"' ∨ c = '\\' ∨ c = '/' then some c
  else if c = 'b' then some (Char.ofNat 0x08)
  else if c = 'f' then some (Char.ofNat 0x0c)
  else if c = 'n' then some '\n'
  else if c = 'r' then some '\r'
  else if c = 't' then some '\t'
  else none

/-- The character of an escaped code unit whose second half, if it needs
one, follows directly; `none` for half of a pair. -/
def pairedChar (unit : Nat) (rest : List Char) : Option Char × List Char :=
  if unit < 0xd800 ∨ 0xdfff < unit then (some (Char.ofNat unit), rest)
  else
    match rest with
    | '\\' :: 'u' :: after =>
      match readCodeUnit after with
      | some (low, after) =>
        if unit < 0xdc00 ∧ 0xdc00 ≤ low ∧ low ≤ 0xdfff then
          (some (Char.ofNat (0x10000 + 0x400 * (unit - 0xd800) + (low - 0xdc00))), after)
        else (none, rest)
      | none => (none, rest)
    | _ => (none, rest)

/-- The rest of a string behind its opening quote, and the text behind
it. What has been read comes first, its last character in front; it is
`none` after half of a pair. -/
def readString : Nat → Option (List Char) → List Char → Option (Option String × List Char)
  | 0, _, _ => none
  | fuel + 1, read, text =>
    match text with
    | [] => none
    | '"' :: rest => some (read.map fun chars => String.ofList chars.reverse, rest)
    | '\\' :: 'u' :: rest => do
      let (unit, rest) ← readCodeUnit rest
      let (char, rest) := pairedChar unit rest
      readString fuel (char.bind fun c => read.map (c :: ·)) rest
    | '\\' :: letter :: rest => do
      let char ← simpleEscape letter
      readString fuel (read.map (char :: ·)) rest
    | c :: rest => if c.toNat < 0x20 then none else readString fuel (read.map (c :: ·)) rest

/-- The digits behind a point, and the rest; there must be one. -/
def readFraction : List Char → Option (Option (List Char) × List Char)
  | '.' :: rest =>
    let (digits, rest) := Decimal.spanDigits rest
    if digits.isEmpty then none else some (some digits, rest)
  | text => some (none, text)

/-- The power of ten, and the rest. -/
def readPower : List Char → Option (Option (Bool × List Char) × List Char)
  | [] => some (none, [])
  | c :: rest =>
    if c = 'e' ∨ c = 'E' then
      let (negative, rest) := Decimal.splitSign rest
      let (digits, rest) := Decimal.spanDigits rest
      if digits.isEmpty then none else some (some (negative, digits), rest)
    else some (none, c :: rest)

/-- A number, and the rest. Only a lone zero may start with a zero. -/
def readNumber (text : List Char) : Option (JsonNumber × List Char) := do
  let (negative, rest) := match text with
    | '-' :: rest => (true, rest)
    | text => (false, text)
  let (whole, rest) := Decimal.spanDigits rest
  if whole.isEmpty || (whole.head? = some '0' && whole.length != 1) then none
  else
    let (fraction, rest) ← readFraction rest
    let (exponent, rest) ← readPower rest
    return (⟨negative, whole, fraction, exponent⟩, rest)

mutual

/-- A value, and the text behind it. -/
def readValue : Nat → List Char → Option (Json × List Char)
  | 0, _ => none
  | fuel + 1, text =>
    match skipSpace text with
    | 'n' :: 'u' :: 'l' :: 'l' :: rest => some (.null, rest)
    | 't' :: 'r' :: 'u' :: 'e' :: rest => some (.bool true, rest)
    | 'f' :: 'a' :: 'l' :: 's' :: 'e' :: rest => some (.bool false, rest)
    | '"' :: rest => (readString (rest.length + 1) (some []) rest).map fun (text, rest) =>
      (.string text, rest)
    | '[' :: rest =>
      match skipSpace rest with
      | ']' :: rest => some (.array [], rest)
      | rest => readItems fuel [] rest
    | '\x7b' :: rest =>
      match skipSpace rest with
      | '\x7d' :: rest => some (.object [], rest)
      | rest => readFields fuel [] rest
    | rest => (readNumber rest).map fun (n, rest) => (.number n, rest)

/-- The items of an array from one that has to be there; those already
read have the last one in front. -/
def readItems : Nat → List Json → List Char → Option (Json × List Char)
  | 0, _, _ => none
  | fuel + 1, read, text => do
    let (item, rest) ← readValue fuel text
    match skipSpace rest with
    | ',' :: rest => readItems fuel (item :: read) rest
    | ']' :: rest => return (.array (item :: read).reverse, rest)
    | _ => none

/-- The fields of an object from one that has to be there; those already
read have the last one in front. -/
def readFields : Nat → List (Option String × Json) → List Char → Option (Json × List Char)
  | 0, _, _ => none
  | fuel + 1, read, text =>
    match skipSpace text with
    | '"' :: rest => do
      let (key, rest) ← readString (rest.length + 1) (some []) rest
      match skipSpace rest with
      | ':' :: rest =>
        let (value, rest) ← readValue fuel rest
        match skipSpace rest with
        | ',' :: rest => readFields fuel ((key, value) :: read) rest
        | '\x7d' :: rest => return (.object ((key, value) :: read).reverse, rest)
        | _ => none
      | _ => none
    | _ => none

end

/-- The value that a text consists of. Every two steps consume a
character, which bounds the steps. -/
def read? (text : String) : Option Json :=
  let chars := text.toList
  match readValue (2 * chars.length + 2) chars with
  | some (value, rest) => if (skipSpace rest).isEmpty then some value else none
  | none => none

end Json

/-! ### Numbers -/

namespace JsonNumber

/-- A coefficient that fits 64 bits, and the power of ten that makes up
for what was left out. -/
structure Scaled where
  coefficient : Nat
  power : Int

/-- Append digits while the coefficient fits 64 bits; the digits that are
left. -/
def Scaled.append (s : Scaled) : List Char → Scaled × List Char
  | [] => (s, [])
  | c :: rest =>
    let next := 10 * s.coefficient + Decimal.ofDigits [c]
    if next < UInt64.size then Scaled.append { s with coefficient := next } rest
    else (s, c :: rest)

/-- The number without its sign and its own power of ten. Digits of the
whole part that do not fit count as powers of ten, digits behind the
point that do not fit are dropped. -/
def scaled (n : JsonNumber) : Scaled :=
  let (whole, left) := Scaled.append ⟨0, 0⟩ n.whole
  let fraction := n.fraction.getD []
  let (all, dropped) := Scaled.append whole fraction
  let used := fraction.length - dropped.length
  ⟨all.coefficient, left.length - used⟩

/-- The coefficient times a power of ten, where a power beyond the range
of doubles is divided off step by step. The coefficient vanishes after
two steps, so a third one changes nothing. -/
def scaleDown (x : Float) : Nat → Nat → Float
  | 0, _ => x
  | steps + 1, power =>
    if power ≤ 308 then x / Double.ofRatio (Nat.pow 10 power) 1
    else scaleDown (x / Double.ofRatio (Nat.pow 10 308) 1) steps (power - 308)

/-- A coefficient times a power of ten in double precision; `none` if that
is too large. -/
def scale (coefficient : Nat) (power : Int) : Option Float :=
  let x := coefficient.toUInt64.toFloat
  if coefficient = 0 then some x
  else if power < 0 then some (scaleDown x 4 power.natAbs)
  else if 308 < power then none
  else
    let result := x * Double.ofRatio (Nat.pow 10 power.natAbs) 1
    if Double.isInfinite result then none else some result

/-- The number in double precision; `none` if it is too large. -/
def toDouble? (n : JsonNumber) : Option Float :=
  let s := n.scaled
  let power : Option Int := match n.exponent with
    | none => some s.power
    | some (negative, digits) =>
      let size := Decimal.ofDigits digits
      if size < 2147483648 then some (if negative then s.power - size else s.power + size)
      else if negative || s.coefficient = 0 then some Int32.minValue.toInt
      else none
  (power.bind (scale s.coefficient)).map fun x => if n.negative then -x else x

/-- The number as an integer, if it is written as one. Negative zero is
not. -/
def toInt? (n : JsonNumber) : Option Int :=
  if n.fraction.isSome || n.exponent.isSome then none
  else
    let size := Decimal.ofDigits n.whole
    if n.negative then if size = 0 then none else some (-size)
    else some size

/-- The number as a single. Integers of 64 bits are rounded once, all
others go through double precision. -/
def toSingle? (n : JsonNumber) : Option Single :=
  match n.toInt? with
  | some value =>
    if Int64.minValue.toInt ≤ value ∧ value < UInt64.size then some (.ofInt value)
    else n.toDouble?.map Single.ofDouble
  | none => n.toDouble?.map Single.ofDouble

end JsonNumber

/-! ### Values of a type -/

namespace Json

/-- A single. -/
def toSingle? : Json → Option Single
  | number n => n.toSingle?
  | _ => none

/-- An integer from zero up to a limit. -/
def toNat? (limit : Nat) : Json → Option Nat
  | number n =>
    match n.toInt? with
    | some (.ofNat value) => if value ≤ limit then some value else none
    | _ => none
  | _ => none

/-- An unsigned 32-bit integer. -/
def toUInt32? (j : Json) : Option UInt32 := (j.toNat? (UInt32.size - 1)).map Nat.toUInt32

/-- An unsigned 8-bit integer. -/
def toUInt8? (j : Json) : Option UInt8 := (j.toNat? 255).map Nat.toUInt8

/-- A truth value. -/
def toBool? : Json → Option Bool
  | bool value => some value
  | _ => none

/-- A text or nothing, where `null` stands for nothing. -/
def toOptionalText? : Json → Option (Option String)
  | null => some none
  | string (some text) => some (some text)
  | _ => none

/-- A list of values of one type. -/
def toList? {α : Type} (item : Json → Option α) : Json → Option (List α)
  | array items => items.mapM item
  | _ => none

/-- Three values of one type. -/
def toTriple? {α : Type} (item : Json → Option α) : Json → Option (α × α × α)
  | array [a, b, c] => do return (← item a, ← item b, ← item c)
  | _ => none

/-- The values of a key. -/
def valuesOf (fields : List (Option String × Json)) (key : String) : List Json :=
  (fields.filter fun (name, _) => name == some key).map Prod.snd

/-- The value of a key that may occur once at most; the outer `none` is an
error. -/
def uniqueValue? (fields : List (Option String × Json)) (key : String) : Option (Option Json) :=
  match valuesOf fields key with
  | [] => some none
  | [value] => some (some value)
  | _ => none

/-- The values of the named fields of a record, which is written as an
object or as the array of its fields in order. Unknown keys are
ignored; a known key twice, a key that is no text and an element too
many are errors. -/
def record? (names : List String) : Json → Option (List (Option Json))
  | object fields =>
    if fields.all fun (name, _) => name.isSome then names.mapM (uniqueValue? fields) else none
  | array items =>
    if items.length ≤ names.length then
      some (items.map some ++ List.replicate (names.length - items.length) none)
    else none
  | _ => none

/-- The value of a field that may be missing. -/
def fieldOr {α : Type} (default : α) (read : Json → Option α) : Option Json → Option α
  | none => some default
  | some value => read value

end Json

end Battlemap
