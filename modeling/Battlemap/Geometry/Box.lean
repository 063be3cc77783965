import Battlemap.Geometry.Vector

/-!
# `Battlemap.Geometry.Box`: boxes along the axes

A box is a pair of corners. It is empty when a lower component exceeds
an upper one; `empty` is the box that any point or box can be merged
into without leaving a trace of it. Tests are inclusive, so boxes that
share a face intersect.
-/

set_option autoImplicit false

namespace Battlemap

/-- An axis-aligned box between two corners. -/
structure Box where
  min : Vec3
  max : Vec3
deriving DecidableEq, Inhabited, Repr

namespace Box

/-- The inverted box: merging a point into it gives that point. -/
def empty : Box := ⟨.splat .infinity, .splat .negInfinity⟩

/-- The box spanned by two opposite corners in any order. -/
def ofCorners (a b : Vec3) : Box := ⟨a.min b, a.max b⟩

/-- The box of a single point. -/
def ofPoint (p : Vec3) : Box := ⟨p, p⟩

/-- Whether some axis runs backwards. A NaN runs neither way. -/
def isEmpty (b : Box) : Bool :=
  decide (b.max.x < b.min.x) || decide (b.max.y < b.min.y) || decide (b.max.z < b.min.z)

/-- The box grown to contain a point. -/
def mergePoint (b : Box) (p : Vec3) : Box := ⟨b.min.min p, b.max.max p⟩

/-- The box grown to contain another one, which has no effect if it is
empty. -/
def merge (b other : Box) : Box :=
  if other.isEmpty then b else ⟨b.min.min other.min, b.max.max other.max⟩

/-- The least box around some points. -/
def ofPoints (points : List Vec3) : Box := points.foldl mergePoint empty

/-- The middle of the box. -/
def center (b : Box) : Vec3 := (b.min + b.max).scale .half

/-- The lengths of the edges. -/
def extent (b : Box) : Vec3 := b.max - b.min

/-- The box moved by an offset. -/
def translated (b : Box) (offset : Vec3) : Box := ⟨b.min + offset, b.max + offset⟩

/-- The box with every edge longer by the given fraction of itself and
the same centre. -/
def inflated (b : Box) (fraction : Single) : Box :=
  let reach := b.extent.scale (.half * (.one + fraction))
  ⟨b.center - reach, b.center + reach⟩

/-- Whether two boxes have a point in common. -/
def intersects (a b : Box) : Bool :=
  decide (a.min.x ≤ b.max.x) && decide (b.min.x ≤ a.max.x)
    && decide (a.min.y ≤ b.max.y) && decide (b.min.y ≤ a.max.y)
    && decide (a.min.z ≤ b.max.z) && decide (b.min.z ≤ a.max.z)

/-- Whether the vertical line through `(x, z)` meets the box's ground
plan. -/
def containsXZ (b : Box) (x z : Single) : Bool :=
  decide (b.min.x ≤ x) && decide (x ≤ b.max.x) && decide (b.min.z ≤ z) && decide (z ≤ b.max.z)

/-- The eight corners; the binary digits of a corner's number choose the
upper end of X, Y and Z. -/
def corners (b : Box) : List Vec3 :=
  [⟨b.min.x, b.min.y, b.min.z⟩, ⟨b.max.x, b.min.y, b.min.z⟩,
   ⟨b.min.x, b.max.y, b.min.z⟩, ⟨b.max.x, b.max.y, b.min.z⟩,
   ⟨b.min.x, b.min.y, b.max.z⟩, ⟨b.max.x, b.min.y, b.max.z⟩,
   ⟨b.min.x, b.max.y, b.max.z⟩, ⟨b.max.x, b.max.y, b.max.z⟩]

end Box

end Battlemap
