import Battlemap.Geometry.Box

/-!
# `Battlemap.Geometry.Plane`: floor and ceiling planes

A plane is the set of points with `normal · p + offset = 0`. Floors and
ceilings are read as heights above `(x, z)`, which needs a normal that
is not horizontal; a plane with a NaN in it, or a nearly horizontal
normal, is invalid, and has the height NaN everywhere.
-/

set_option autoImplicit false

namespace Battlemap

/-- The tolerance of inclusive edge tests, `10 ^ -6`. -/
def edgeTolerance : Single := ⟨0x358637bd⟩

/-- The plane `normal · p + offset = 0`. -/
structure Plane where
  normal : Vec3
  offset : Single
deriving DecidableEq, Inhabited, Repr

namespace Plane

/-- The missing plane. -/
def invalid : Plane := ⟨.splat .nan, .nan⟩

/-- The horizontal plane at a height, facing up. -/
def facingUp (height : Single) : Plane := ⟨.up, -height⟩

/-- The horizontal plane at a height, facing down. -/
def facingDown (height : Single) : Plane := ⟨.down, height⟩

/-- The plane through three points, facing the side from which they run
counter-clockwise. -/
def throughPoints (a b c : Vec3) : Plane :=
  let normal := ((b - a).cross (c - a)).normalizeOrZero
  ⟨normal, -normal.dot a⟩

/-- Whether the plane has a height above every point. -/
def isValid (p : Plane) : Bool :=
  p.normal.isFinite && p.offset.isFinite && decide (edgeTolerance < p.normal.y.abs)

/-- The height above `(x, z)`, which is NaN for an invalid plane. -/
def heightAt (p : Plane) (x z : Single) : Single :=
  if p.isValid then -(p.normal.x * x + p.normal.z * z + p.offset) / p.normal.y else .nan

/-- The same surface, facing the other side. -/
def flipped (p : Plane) : Plane := ⟨-p.normal, -p.offset⟩

/-- The same surface moved up by `dy`. -/
def raised (p : Plane) (dy : Single) : Plane :=
  { p with offset := p.offset - p.normal.y * dy }

/-- The surface turned a quarter about the vertical axis, from X towards
Z. -/
def turnedOnce (p : Plane) : Plane :=
  { p with normal := ⟨-p.normal.z, p.normal.y, p.normal.x⟩ }

/-- The surface turned by some quarter turns. -/
def turned (p : Plane) (quarterTurns : Nat) : Plane :=
  Nat.repeat turnedOnce (quarterTurns % 4) p

end Plane

end Battlemap
