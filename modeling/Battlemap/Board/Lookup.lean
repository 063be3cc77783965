import Battlemap.Board.Basic

/-!
# `Battlemap.Board.Lookup`: which level a point stands on

The levels of the point's tile are tried from the bottom up. A level
matches if it is not destroyed, the mask selects its layer and its
floor at the point is within `range` of the point's height. Without a
match the topmost level answers, so a tile with levels always does.
-/

set_option autoImplicit false

namespace Battlemap

/-- The level that a lookup found. -/
structure Standing where
  cell : Cell
  /-- The position of the level in its tile. -/
  level : Nat
  /-- The index of the level in the map. -/
  levelIndex : Nat
  floorHeight : Single
  /-- Whether the level matched, or only is the topmost one. -/
  matched : Bool
deriving DecidableEq

namespace Board

/-- What a lookup asks for. -/
structure Query where
  point : Vec3
  range : Single
  mask : UInt32
deriving DecidableEq

/-- The answer that names the level at a position of a tile; `none` if the
level array ends before it. -/
def standingAt? (b : Board) (q : Query) (c : Cell) (tile : Tile) (matched : Bool)
    (position : Nat) : Option Standing :=
  b.levels[tile.first + position]?.map fun level =>
    ⟨c, position, tile.first + position, b.floorHeight c level q.point.x q.point.z, matched⟩

/-- Whether a height is within `range` of the query's point. -/
def Query.reaches (q : Query) (height : Single) : Bool :=
  decide (q.point.y - q.range ≤ height) && decide (height ≤ q.point.y + q.range)

/-- Whether the data selects the level: it is not destroyed and its layer
is in the mask. -/
def Query.selects (q : Query) (data : LevelData) : Bool :=
  !data.header.isDestroyed && data.header.layerMask &&& q.mask != 0

/-- Whether a level of a tile matches. A level without data does not. -/
def levelMatches (b : Board) (q : Query) (c : Cell) (level : Level) : Bool :=
  match b.data[level.dataIndex.toNat]? with
  | some data => q.selects data && q.reaches (b.floorHeight c level q.point.x q.point.z)
  | none => false

/-- Whether the level at a position of a tile matches; `none` if the level
array ends before it. -/
def matchesAt? (b : Board) (q : Query) (c : Cell) (tile : Tile) (position : Nat) : Option Bool :=
  b.levels[tile.first + position]?.map (b.levelMatches q c)

/-- The level that a point stands on: the lowest one that matches, else
the topmost one of the tile. Outside the option for a level that the
level array does not hold, there is no answer where there are no
levels. -/
def lookup? (b : Board) (q : Query) : Option (Option Standing) :=
  let cell := b.grid.cellAt q.point.x q.point.z
  match b.tile? cell with
  | none => some none
  | some tile =>
    if tile.count = 0 then some none
    else do
      match ← (List.range tile.count).findM? (b.matchesAt? q cell tile) with
      | some position => (b.standingAt? q cell tile true position).map some
      | none => (b.standingAt? q cell tile false (tile.count - 1)).map some

/-- The level that a point stands on, on a consistent board. -/
def lookup (b : Board) (q : Query) : Option Standing := (b.lookup? q).join

end Board

end Battlemap
