/-!
# `Battlemap.Text.Utf8`: text from bytes

A lead byte fixes the length of its sequence and the range of the byte
after it, which rules out overlong forms, surrogates and code points
beyond the last; all later bytes only have to continue. Strict decoding
fails at the first sequence that breaks off. Lenient decoding writes
one replacement character for what there is of it and goes on with the
byte that did not fit.
-/

set_option autoImplicit false

namespace Battlemap

namespace Utf8

/-- How many bytes follow a lead byte, and the range of the first of
them; `none` for a byte that starts no sequence. -/
def leadInfo (lead : UInt8) : Option (Nat × UInt8 × UInt8) :=
  if lead < 0x80 then some (0, 0x80, 0xbf)
  else if lead < 0xc2 then none
  else if lead < 0xe0 then some (1, 0x80, 0xbf)
  else if lead = 0xe0 then some (2, 0xa0, 0xbf)
  else if lead = 0xed then some (2, 0x80, 0x9f)
  else if lead < 0xf0 then some (2, 0x80, 0xbf)
  else if lead = 0xf0 then some (3, 0x90, 0xbf)
  else if lead < 0xf4 then some (3, 0x80, 0xbf)
  else if lead = 0xf4 then some (3, 0x80, 0x8f)
  else none

/-- The bytes from the front that continue a sequence, at most `count`
of them, where the first lies between `low` and `high`. -/
def continuation (count : Nat) (low high : UInt8) (bytes : List UInt8) : List UInt8 :=
  match count, bytes with
  | count + 1, byte :: rest =>
    if low ≤ byte ∧ byte ≤ high then byte :: continuation count 0x80 0xbf rest else []
  | _, _ => []

/-- The character of a complete sequence. -/
def decodeSequence (lead : UInt8) (tail : List UInt8) : Char :=
  let bits := match tail.length with
    | 0 => lead.toNat
    | 1 => lead.toNat % 0x20
    | 2 => lead.toNat % 0x10
    | _ => lead.toNat % 0x08
  Char.ofNat (tail.foldl (fun code byte => code * 0x40 + byte.toNat % 0x40) bits)

/-- The character at the front, if its sequence is complete, and the
number of bytes after the lead byte that belong to it. -/
def decodeFront (lead : UInt8) (rest : List UInt8) : Option Char × Nat :=
  match leadInfo lead with
  | none => (none, 0)
  | some (count, low, high) =>
    let tail := continuation count low high rest
    (if tail.length = count then some (decodeSequence lead tail) else none, tail.length)

/-- The characters of some bytes, each broken sequence replaced. -/
def decodeLenient : List UInt8 → List Char
  | [] => []
  | lead :: rest =>
    let (char, used) := decodeFront lead rest
    char.getD (Char.ofNat 0xfffd) :: decodeLenient (rest.drop used)
termination_by bytes => bytes.length
decreasing_by simp only [List.length_drop, List.length_cons]; omega

/-- The characters of some bytes in front of the ones already read, the
last of which comes first. -/
def decodeOnto (read : List Char) : List UInt8 → Option (List Char)
  | [] => some read.reverse
  | lead :: rest =>
    match decodeFront lead rest with
    | (some char, used) => decodeOnto (char :: read) (rest.drop used)
    | (none, _) => none
termination_by bytes => bytes.length
decreasing_by simp only [List.length_drop, List.length_cons]; omega

/-- The text of some bytes, unless a sequence breaks off. -/
def decode? (bytes : List UInt8) : Option String :=
  (decodeOnto [] bytes).map String.ofList

end Utf8

end Battlemap
