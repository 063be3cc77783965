import Battlemap.Grid

/-!
# `Battlemap.Stitch.Rotation`: quarter turns of a grid

A parcel can be turned about the vertical axis by multiples of a right
angle, from X towards Z. Turning a grid moves its cells and swaps its
width and height for odd numbers of quarter turns.
-/

set_option autoImplicit false

namespace Battlemap

/-- A multiple of a right angle, less than a full turn. -/
inductive Rotation where
  | none
  | quarter
  | half
  | threeQuarters
deriving DecidableEq, Inhabited, Repr

namespace Rotation

/-- The rotation by an angle in degrees, if it is a multiple of 90. -/
def ofDegrees? (degrees : Int) : Option Rotation :=
  let angle := degrees % 360
  if angle = 0 then some none
  else if angle = 90 then some quarter
  else if angle = 180 then some half
  else if angle = 270 then some threeQuarters
  else Option.none

/-- The number of quarter turns. -/
def quarterTurns : Rotation → Nat
  | none => 0
  | quarter => 1
  | half => 2
  | threeQuarters => 3

/-- The width and height of a turned grid. -/
def size (r : Rotation) (width height : UInt32) : UInt32 × UInt32 :=
  match r with
  | none | half => (width, height)
  | quarter | threeQuarters => (height, width)

/-- Where a cell of a grid is after the grid has been turned. -/
def cell (r : Rotation) (width height : UInt32) (c : Cell) : Cell :=
  match r with
  | none => c
  | quarter => ⟨height - 1 - c.z, c.x⟩
  | half => ⟨width - 1 - c.x, height - 1 - c.z⟩
  | threeQuarters => ⟨c.z, width - 1 - c.x⟩

end Rotation

end Battlemap
