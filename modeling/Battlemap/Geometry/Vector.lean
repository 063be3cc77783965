import Battlemap.Number.Trigonometry

/-!
# `Battlemap.Geometry.Vector`: points and directions

The Y axis points up; the tile grid spans X, its columns, and Z, its
rows. Sums are formed from left to right, one rounding per operation,
so two programs that agree on the order agree on every bit.
-/

set_option autoImplicit false

namespace Battlemap

/-- A point or direction in space. -/
structure Vec3 where
  x : Single
  y : Single
  z : Single
deriving DecidableEq, Inhabited, Repr

namespace Vec3

/-- The vector with three equal components. -/
def splat (a : Single) : Vec3 := ⟨a, a, a⟩

/-- The origin. -/
def zero : Vec3 := splat .zero

/-- The direction upwards. -/
def up : Vec3 := ⟨.zero, .one, .zero⟩

/-- The direction downwards. -/
def down : Vec3 := ⟨.zero, -Single.one, .zero⟩

/-- A vector by a binary operation on each component. -/
def zipWith (f : Single → Single → Single) (a b : Vec3) : Vec3 :=
  ⟨f a.x b.x, f a.y b.y, f a.z b.z⟩

instance : Add Vec3 := ⟨zipWith (· + ·)⟩
instance : Sub Vec3 := ⟨zipWith (· - ·)⟩
instance : Neg Vec3 := ⟨fun a => ⟨-a.x, -a.y, -a.z⟩⟩

/-- The componentwise minimum. -/
protected def min : Vec3 → Vec3 → Vec3 := zipWith Single.min

/-- The componentwise maximum. -/
protected def max : Vec3 → Vec3 → Vec3 := zipWith Single.max

/-- The vector with every component multiplied by `factor`. -/
def scale (a : Vec3) (factor : Single) : Vec3 :=
  ⟨a.x * factor, a.y * factor, a.z * factor⟩

/-- The inner product. -/
def dot (a b : Vec3) : Single := a.x * b.x + a.y * b.y + a.z * b.z

/-- The outer product. -/
def cross (a b : Vec3) : Vec3 :=
  ⟨a.y * b.z - b.y * a.z, a.z * b.x - b.z * a.x, a.x * b.y - b.x * a.y⟩

/-- The vector scaled to length one, or zero if it has no direction that
can be computed. -/
def normalizeOrZero (a : Vec3) : Vec3 :=
  let reciprocal := Single.one / (a.dot a).sqrt
  if reciprocal.isFinite && decide (Single.zero < reciprocal) then a.scale reciprocal else zero

/-- Whether no component is infinite or NaN. -/
def isFinite (a : Vec3) : Bool := a.x.isFinite && a.y.isFinite && a.z.isFinite

end Vec3

end Battlemap
