import Battlemap.Board.Consistency
import Battlemap.Number.Decimal
import Battlemap.Stitch.Rotation

/-!
# `Battlemap.Stitch.Parcel`: finished maps to be put together

A parcel is a finished map with a place in the destination: a rotation,
a position for the lower corner of its turned footprint, and an
identifier that its levels are marked with. All parcels must have tiles
of one size; the destination is the grid over all footprints.
-/

set_option autoImplicit false

namespace Battlemap

/-- A finished map and where to put it. -/
structure Parcel where
  board : Board
  position : Vec3
  rotation : Rotation
  id : UInt32
deriving DecidableEq, Inhabited

/-- Why parcels cannot be put together. -/
inductive StitchError where
  | noParcels
  | tileSizeMismatch (parcel : UInt32) (expected found : Single)
  | gridTooLarge (width height : UInt64) (limit : Nat)
  /-- A tile of a parcel lands on a tile that already has levels. -/
  | overlap (parcel : UInt32) (cell : Cell)
  /-- A parcel's map does not agree with itself. -/
  | invalid (parcel : UInt32) (defect : Defect)
  /-- The result does not agree with itself. -/
  | inconsistent (defect : Defect)
deriving DecidableEq

/-- The message of the error. -/
def StitchError.message : StitchError → String
  | noParcels => "no instances to stitch"
  | tileSizeMismatch parcel expected found =>
    s!"parcel {parcel} has tile size " ++ found.plainText ++ ", expected " ++ expected.plainText
  | gridTooLarge width height limit =>
    s!"stitched grid of {width}x{height} tiles exceeds the {limit} tile coordinate limit"
  | overlap parcel cell => s!"parcel {parcel} overlaps occupied tile {cell.x},{cell.z}"
  | invalid parcel defect => s!"parcel {parcel}: " ++ defect.message
  | inconsistent defect => defect.message

namespace Parcel

/-- The box of the turned parcel in the destination. -/
def footprint (p : Parcel) : Box :=
  let g := p.board.grid
  let (width, height) := p.rotation.size g.width g.height
  .ofCorners ⟨p.position.x, g.minHeight + p.position.y, p.position.z⟩
    ⟨p.position.x + .ofUInt32 width * g.tileSize, g.maxHeight + p.position.y,
     p.position.z + .ofUInt32 height * g.tileSize⟩

/-- The union of the footprints of parcels with the expected tile size,
merged into `bounds` one after the other. -/
def mergeFootprints (tileSize : Single) (bounds : Box) (p : Parcel) : Except StitchError Box :=
  let found := p.board.grid.tileSize
  if found.sameNumber tileSize then .ok (bounds.merge p.footprint)
  else .error (.tileSizeMismatch p.id tileSize found)

/-- The grid over the footprints of all parcels. -/
def destination : List Parcel → Except StitchError Grid
  | [] => .error .noParcels
  | first :: rest => do
    let tileSize := first.board.grid.tileSize
    let bounds ← (first :: rest).foldlM (mergeFootprints tileSize) .empty
    let (width, height) := Grid.dimensionsFor bounds tileSize
    if Grid.dimensionLimit < width.toNat ∨ Grid.dimensionLimit < height.toNat then
      throw (.gridTooLarge width height Grid.dimensionLimit)
    return ⟨width.toUInt32, height.toUInt32, tileSize, bounds.min, bounds.min.y, bounds.max.y⟩

end Parcel

end Battlemap
