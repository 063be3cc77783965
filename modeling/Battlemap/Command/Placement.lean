import Battlemap.Geometry.Vector
import Battlemap.Number.Decimal
import Battlemap.Stitch.Rotation
import Battlemap.Text.Blank

/-!
# `Battlemap.Command.Placement`: points and parcels on the command line

A point is three numbers with commas between them. A parcel is a file, a
commercial at, and its point, rotation in degrees and identifier, all
with commas between them; the file is what stands before the last
commercial at. Numbers may have blanks around them. Fields behind the
identifier of a parcel are not looked at, fields behind the third number
of a point are an error.
-/

set_option autoImplicit false

namespace Battlemap

/-- Why a point or a parcel cannot be read. -/
inductive PlacementError where
  | missing (field : String)
  | invalid (field : String)
  /-- A point has more than three fields. -/
  | surplus
  /-- A parcel has no commercial at. -/
  | noFile
  | unevenRotation (degrees : Int)
deriving DecidableEq

/-- The message of the error. -/
def PlacementError.message : PlacementError → String
  | missing field => "Missing " ++ field
  | invalid field => "Invalid " ++ field
  | surplus => "Expected X,Y,Z"
  | noFile => "Expected FILE@X,Y,Z,ROTATION,PARCEL"
  | unevenRotation degrees => s!"Rotation {degrees} is not a multiple of 90"

/-- The parts of a text between its commas. -/
def fieldsOf (text : String) : List String := (text.toList.splitOn ',').map String.ofList

/-- Read a field, trimmed. -/
def readField {α : Type} (read : String → Option α) (name : String) (fields : List String)
    (place : Nat) : Except PlacementError α :=
  match fields[place]? with
  | none => .error (.missing name)
  | some field =>
    match read (trimmed field) with
    | some value => .ok value
    | none => .error (.invalid name)

/-- Read the point that the first three fields make up. -/
def readPointFields (fields : List String) : Except PlacementError Vec3 := do
  let x ← readField Single.read? "X" fields 0
  let y ← readField Single.read? "Y" fields 1
  let z ← readField Single.read? "Z" fields 2
  return ⟨x, y, z⟩

/-- Read a point. -/
def readPoint (text : String) : Except PlacementError Vec3 := do
  let fields := fieldsOf text
  let point ← readPointFields fields
  if 3 < fields.length then throw .surplus else return point

/-- A file and where to put the map in it. -/
structure ParcelPlacement where
  path : String
  position : Vec3
  rotation : Rotation
  parcel : UInt32
deriving DecidableEq

/-- The text before and behind the last commercial at. -/
def splitAtLast (text : String) : Option (String × String) :=
  let (back, rest) := text.toList.reverse.span (· != '@')
  match rest with
  | [] => none
  | _ :: front => some (String.ofList front.reverse, String.ofList back.reverse)

/-- The rotation by an angle in degrees. -/
def rotationOf (degrees : Int32) : Except PlacementError Rotation :=
  match Rotation.ofDegrees? degrees.toInt with
  | some rotation => .ok rotation
  | none => .error (.unevenRotation degrees.toInt)

/-- Read a parcel. -/
def readPlacement (text : String) : Except PlacementError ParcelPlacement := do
  match splitAtLast text with
  | none => throw .noFile
  | some (path, rest) =>
    let fields := fieldsOf rest
    let position ← readPointFields fields
    let degrees ← readField readInt32 "rotation" fields 3
    let rotation ← rotationOf degrees
    let parcel ← readField readUInt32 "parcel id" fields 4
    return ⟨path, position, rotation, parcel⟩

end Battlemap
