import Battlemap.MapFile.Error

/-!
# `Battlemap.MapFile.Bytes`: numbers in a file

All numbers are stored with the least significant byte first, floats by
their bit pattern. Writing a number gives its bytes; a reader takes the
bytes it needs from the front and leaves the rest, or reports that the
file ends early. Each reader is the inverse of its writer on whatever
follows.
-/

set_option autoImplicit false

namespace Battlemap

/-! ### Writing -/

/-- The bytes of a 16-bit number. -/
def bytesOfUInt16 (n : UInt16) : List UInt8 := [n.toUInt8, (n >>> 8).toUInt8]

/-- The bytes of a 32-bit number. -/
def bytesOfUInt32 (n : UInt32) : List UInt8 :=
  [n.toUInt8, (n >>> 8).toUInt8, (n >>> 16).toUInt8, (n >>> 24).toUInt8]

/-- The bytes of a signed 32-bit number. -/
def bytesOfInt32 (n : Int32) : List UInt8 := bytesOfUInt32 n.toUInt32

/-- The bytes of a float. -/
def bytesOfSingle (a : Single) : List UInt8 := bytesOfUInt32 a.bits

/-- The bytes of a vector. -/
def bytesOfVec3 (v : Vec3) : List UInt8 :=
  bytesOfSingle v.x ++ bytesOfSingle v.y ++ bytesOfSingle v.z

/-- The bytes of a plane. -/
def bytesOfPlane (p : Plane) : List UInt8 := bytesOfVec3 p.normal ++ bytesOfSingle p.offset

/-! ### Reading -/

/-- A reader takes what it reads from the front of the bytes. -/
abbrev Reader (α : Type) := StateT (List UInt8) (Except MapFileError) α

namespace Reader

/-- Stop with an error. -/
def fail {α : Type} (error : MapFileError) : Reader α := fun _ => .error error

/-- Take some bytes from the front. -/
def take (count : Nat) : Reader (List UInt8) := fun bytes =>
  let taken := bytes.take count
  if taken.length = count then .ok (taken, bytes.drop count) else .error .truncated

/-- Read a byte. -/
def uint8 : Reader UInt8
  | byte :: rest => .ok (byte, rest)
  | [] => .error .truncated

/-- Read a 16-bit number. -/
def uint16 : Reader UInt16
  | b0 :: b1 :: rest => .ok (b0.toUInt16 ||| (b1.toUInt16 <<< 8), rest)
  | _ => .error .truncated

/-- Read a 32-bit number. -/
def uint32 : Reader UInt32
  | b0 :: b1 :: b2 :: b3 :: rest =>
    .ok (b0.toUInt32 ||| (b1.toUInt32 <<< 8) ||| (b2.toUInt32 <<< 16) ||| (b3.toUInt32 <<< 24),
      rest)
  | _ => .error .truncated

/-- Read a signed 32-bit number. -/
def int32 : Reader Int32 := do return (← uint32).toInt32

/-- Read a float. -/
def single : Reader Single := do return ⟨← uint32⟩

/-- Read a vector. -/
def vec3 : Reader Vec3 := do
  let x ← single
  let y ← single
  let z ← single
  return ⟨x, y, z⟩

/-- Read a plane. -/
def plane : Reader Plane := do
  let normal ← vec3
  let offset ← single
  return ⟨normal, offset⟩

/-- Read some records onto an array, one after the other. -/
def manyOnto {α : Type} (record : Reader α) : Nat → Array α → Reader (Array α)
  | 0, read => pure read
  | count + 1, read => do
    let next ← record
    manyOnto record count (read.push next)

/-- Read a number of records. -/
def many {α : Type} (record : Reader α) (count : Nat) : Reader (Array α) :=
  manyOnto record count #[]

end Reader

end Battlemap
