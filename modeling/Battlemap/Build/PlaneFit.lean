import Battlemap.Geometry.Plane
import Battlemap.Number.Double

/-!
# `Battlemap.Build.PlaneFit`: least-squares planes

The plane `y = a x + b z + c` with the least sum of squared vertical
distances to some points solves a linear system of three equations. It
is set up and solved in double precision, with heights counted from a
given one to keep the sums small. Too few points, or points whose ground
plan is a line, have no such plane.
-/

set_option autoImplicit false

namespace Battlemap

/-- A vector in double precision. -/
structure DoubleVec3 where
  x : Float
  y : Float
  z : Float

namespace DoubleVec3

/-- The inner product. -/
def dot (a b : DoubleVec3) : Float := a.x * b.x + a.y * b.y + a.z * b.z

/-- The outer product. -/
def cross (a b : DoubleVec3) : DoubleVec3 :=
  ⟨a.y * b.z - b.y * a.z, a.z * b.x - b.z * a.x, a.x * b.y - b.x * a.y⟩

/-- The vector with every component multiplied by `factor`. -/
def scale (a : DoubleVec3) (factor : Float) : DoubleVec3 :=
  ⟨a.x * factor, a.y * factor, a.z * factor⟩

/-- The vector with every component divided by `divisor`, and rounded to
single precision. -/
def divideToSingle (a : DoubleVec3) (divisor : Float) : Vec3 :=
  ⟨.ofDouble (a.x / divisor), .ofDouble (a.y / divisor), .ofDouble (a.z / divisor)⟩

end DoubleVec3

/-- The sums over all points that the linear system is made of. -/
structure FitSums where
  xx : Float
  xz : Float
  zz : Float
  x : Float
  z : Float
  xy : Float
  zy : Float
  y : Float

namespace FitSums

/-- The sums of no points. -/
def zero : FitSums := ⟨0.0, 0.0, 0.0, 0.0, 0.0, 0.0, 0.0, 0.0⟩

/-- The sums with one more point, its height counted from `shift`. -/
def add (shift : Single) (s : FitSums) (p : Vec3) : FitSums :=
  let x := p.x.toDouble
  let y := (p.y - shift).toDouble
  let z := p.z.toDouble
  { xx := s.xx + x * x
    xz := s.xz + x * z
    zz := s.zz + z * z
    x := s.x + x
    z := s.z + z
    xy := s.xy + x * y
    zy := s.zy + z * y
    y := s.y + y }

/-- The coefficients `a`, `b` and `c` of the plane through `count` points,
by the inverse of the system's matrix; `none` if its determinant is
next to zero. -/
def solve (s : FitSums) (count : Float) : Option DoubleVec3 :=
  let first : DoubleVec3 := ⟨s.xx, s.xz, s.x⟩
  let second : DoubleVec3 := ⟨s.xz, s.zz, s.z⟩
  let third : DoubleVec3 := ⟨s.x, s.z, count⟩
  let determinant := third.dot (first.cross second)
  if determinant.abs < Float.ofBits 0x3e112e0be826d695 then none
  else
    let reciprocal := 1.0 / determinant
    let right : DoubleVec3 := ⟨s.xy, s.zy, s.y⟩
    some ⟨((second.cross third).scale reciprocal).dot right,
      ((third.cross first).scale reciprocal).dot right,
      ((first.cross second).scale reciprocal).dot right⟩

end FitSums

/-- The plane facing up that fits some points best, with heights counted
from `shift`. -/
def fitPlane (points : List Vec3) (shift : Single) : Option Plane :=
  if points.length < 3 then none
  else
    let sums := points.foldl (FitSums.add shift) .zero
    (sums.solve (Double.ofInt points.length)).map fun ⟨a, b, c⟩ =>
      let normal : DoubleVec3 := ⟨-a, 1.0, -b⟩
      let length := (normal.dot normal).sqrt
      ⟨normal.divideToSingle length, .ofDouble (-(c + shift.toDouble) / length)⟩

end Battlemap
