/-!
# `Battlemap.Text.Hex`: bytes as hexadecimal digits

Every byte is two digits, the upper half first. Reading takes digits of
either case and nothing else; writing uses lower case.
-/

set_option autoImplicit false

namespace Battlemap

namespace Hex

/-- The value of a hexadecimal digit. -/
def digit? (c : Char) : Option Nat :=
  if '0' ≤ c ∧ c ≤ '9' then some (c.toNat - '0'.toNat)
  else if 'a' ≤ c ∧ c ≤ 'f' then some (c.toNat - 'a'.toNat + 10)
  else if 'A' ≤ c ∧ c ≤ 'F' then some (c.toNat - 'A'.toNat + 10)
  else none

/-- The bytes of pairs of digits in front of the bytes already read, the
last of which comes first. -/
def decodeOnto (read : List UInt8) : List Char → Option (List UInt8)
  | [] => some read.reverse
  | [_] => none
  | upper :: lower :: rest =>
    match digit? upper, digit? lower with
    | some u, some l => decodeOnto ((16 * u + l).toUInt8 :: read) rest
    | _, _ => none

/-- The bytes that a text writes, if it consists of pairs of digits. -/
def decode? (text : String) : Option (List UInt8) := decodeOnto [] text.toList

/-- The two digits of a byte. -/
def encodeByte (byte : UInt8) : List Char :=
  [Nat.digitChar (byte.toNat / 16), Nat.digitChar (byte.toNat % 16)]

/-- The text of some bytes. -/
def encode (bytes : List UInt8) : String := String.ofList (bytes.flatMap encodeByte)

end Hex

end Battlemap
