import Battlemap.Geometry.Vector

/-!
# `Battlemap.Geometry.Placement`: placing solids in the world

An affine map is kept as the images of the three axes and the image of
the origin. A scene places a solid by a uniform scale, then a rotation
about the vertical axis, then a translation; the rotation goes through
the unit quaternion of the half angle.
-/

set_option autoImplicit false

namespace Battlemap

/-- An affine map, by its columns. -/
structure AffineMap where
  xAxis : Vec3
  yAxis : Vec3
  zAxis : Vec3
  translation : Vec3
deriving DecidableEq, Inhabited, Repr

namespace AffineMap

/-- The map that leaves every point where it is. -/
def identity : AffineMap :=
  ⟨⟨.one, .zero, .zero⟩, ⟨.zero, .one, .zero⟩, ⟨.zero, .zero, .one⟩, .zero⟩

/-- The image of a point. -/
def apply (m : AffineMap) (p : Vec3) : Vec3 :=
  m.xAxis.scale p.x + m.yAxis.scale p.y + m.zAxis.scale p.z + m.translation

/-- The columns of the rotation of the unit quaternion `(x, y, z, w)`,
each multiplied by `size`. -/
def rotationColumns (x y z w size : Single) : Vec3 × Vec3 × Vec3 :=
  let x2 := x + x
  let y2 := y + y
  let z2 := z + z
  let xx := x * x2
  let xy := x * y2
  let xz := x * z2
  let yy := y * y2
  let yz := y * z2
  let zz := z * z2
  let wx := w * x2
  let wy := w * y2
  let wz := w * z2
  ((⟨.one - (yy + zz), xy + wz, xz - wy⟩ : Vec3).scale size,
   (⟨xy - wz, .one - (xx + zz), yz + wx⟩ : Vec3).scale size,
   (⟨xz + wy, yz - wx, .one - (xx + yy)⟩ : Vec3).scale size)

end AffineMap

/-- How a scene places a solid: scaled, turned about the vertical axis by
an angle in degrees, then moved. -/
structure Placement where
  translation : Vec3
  rotationDegrees : Single
  scale : Single
deriving DecidableEq, Repr

namespace Placement

instance : Inhabited Placement := ⟨⟨.zero, .zero, .one⟩⟩

/-- The affine map of the placement. -/
def toAffineMap (p : Placement) : AffineMap :=
  let halfAngle := p.rotationDegrees.toRadians * .half
  let (xAxis, yAxis, zAxis) :=
    AffineMap.rotationColumns .zero halfAngle.sin .zero halfAngle.cos p.scale
  ⟨xAxis, yAxis, zAxis, p.translation⟩

end Placement

end Battlemap
