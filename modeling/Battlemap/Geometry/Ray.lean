import Battlemap.Geometry.Plane

/-!
# `Battlemap.Geometry.Ray`: vertical rays

Solids are sampled by rays that start somewhere below the scene and run
straight up. A ray meets a box in an interval of heights, of which the
part below the start is cut off, and a triangle in one height, found by
the barycentric coordinates of its ground plan. Edges count as inside
and the winding does not matter; triangles whose ground plan has no
area are never met.
-/

set_option autoImplicit false

namespace Battlemap

/-- The ray that starts at height `start` above `(x, z)` and runs up. -/
structure VerticalRay where
  x : Single
  z : Single
  start : Single
deriving DecidableEq, Repr

namespace VerticalRay

/-- Where the ray enters and leaves a box. -/
def meetBox (ray : VerticalRay) (box : Box) : Option (Single × Single) :=
  if box.containsXZ ray.x ray.z && !decide (box.max.y < ray.start) then
    some (box.min.y.max ray.start, box.max.y)
  else none

/-- Twice the signed area of the ground plan of the triangle from `a`
over `b` to `(x, z)`. -/
def edgeArea (a b : Vec3) (x z : Single) : Single :=
  (b.x - a.x) * (z - a.z) - (b.z - a.z) * (x - a.x)

/-- Where the ray meets the triangle `a b c`. -/
def meetTriangle (ray : VerticalRay) (a b c : Vec3) : Option Single :=
  let area := edgeArea a b c.x c.z
  if area.abs ≤ edgeTolerance then none
  else
    let shareA := edgeArea b c ray.x ray.z / area
    let shareB := edgeArea c a ray.x ray.z / area
    let shareC := edgeArea a b ray.x ray.z / area
    if shareA < -edgeTolerance ∨ shareB < -edgeTolerance ∨ shareC < -edgeTolerance then none
    else
      let height := shareA * a.y + shareB * b.y + shareC * c.y
      if ray.start ≤ height then some height else none

end VerticalRay

end Battlemap
