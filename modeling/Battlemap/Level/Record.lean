import Battlemap.Geometry.Plane
import Battlemap.Level.Header

/-!
# `Battlemap.Level.Record`: levels and tiles

A level is the space between a floor and, if there is one, a roof. Its
planes are stored relative to the middle of its tile, so the record
can be copied to another place in the grid as it is. A tile owns a run
of consecutive level records, ordered from the bottom.
-/

set_option autoImplicit false

namespace Battlemap

/-- A run of level records. -/
structure Tile where
  levelCount : UInt32
  levelStart : UInt32
deriving DecidableEq, Inhabited, Repr

namespace Tile

/-- The length of a tile record in a file. -/
def recordSize : UInt32 := 8

/-- The index of the first level, as a natural number. So are the indices of the levels above,
which are sums with it and never wrap: in 32 bits those of a run that goes past the last index
would, and no map with fewer than `2 ^ 32` levels has such a run. -/
def first (t : Tile) : Nat := t.levelStart.toNat

/-- The number of levels. -/
def count (t : Tile) : Nat := t.levelCount.toNat

end Tile

/-- A level record. -/
structure Level where
  floor : Plane
  /-- Invalid if the level has no roof. -/
  ceiling : Plane
  baseHeight : Single
  /-- Infinite if the level has no roof. -/
  roofDelta : Single
  dataIndex : UInt32
  reserved : UInt32
deriving DecidableEq, Inhabited, Repr

/-- A range of heights. -/
structure Span where
  low : Single
  high : Single
deriving DecidableEq, Inhabited, Repr

namespace Level

/-- The length of a level record in a file. -/
def recordSize : UInt32 := 48

/-- Whether the level is closed from above. -/
def hasRoof (l : Level) : Bool := l.ceiling.isValid && l.roofDelta.isFinite

/-- The upper end of the level: its roof, or infinity. -/
def topHeight (l : Level) : Single :=
  if l.roofDelta.isFinite then l.baseHeight + l.roofDelta else .infinity

/-- Whether the level reaches into a range of heights. -/
def overlaps (l : Level) (span : Span) : Bool :=
  decide (l.baseHeight ≤ span.high) && decide (span.low ≤ l.topHeight)

end Level

end Battlemap
