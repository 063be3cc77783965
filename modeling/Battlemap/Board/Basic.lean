import Battlemap.Grid
import Battlemap.Level.Record

/-!
# `Battlemap.Board.Basic`: the tactical map

A board is a grid and three arrays that refer to one another by index:
a tile owns a run of levels, a level names its gameplay data. Operations
whose name ends in a question mark answer `none` where something that
they go by is not there; on a consistent board (see
`Battlemap.Board.Consistency`) no run of levels is ever cut short.
-/

set_option autoImplicit false

namespace Battlemap

/-- A tactical map. -/
structure Board where
  grid : Grid
  /-- The payload length of every level, in bytes. -/
  payloadSize : UInt32
  /-- The tiles in row-major order. -/
  tiles : Array Tile
  levels : Array Level
  data : Array LevelData
deriving DecidableEq, Inhabited

namespace Board

/-- The tile at a cell of the grid. -/
def tile? (b : Board) (c : Cell) : Option Tile :=
  if b.grid.contains c then b.tiles[b.grid.tileIndex c]? else none

/-- The gameplay data of the level with an index. -/
def dataOf? (b : Board) (levelIndex : Nat) : Option LevelData := do
  let level ← b.levels[levelIndex]?
  b.data[level.dataIndex.toNat]?

/-- The levels of a tile from the bottom up, no levels for a cell outside
the grid; `none` if the run of the tile leaves the level array. -/
def levelsAt? (b : Board) (c : Cell) : Option (List Level) :=
  match b.tile? c with
  | some tile =>
    if tile.first + tile.count ≤ b.levels.size then
      some (b.levels.extract tile.first (tile.first + tile.count)).toList
    else none
  | none => some []

/-- The levels of a tile of a consistent board. -/
def levelsAt (b : Board) (c : Cell) : List Level := (b.levelsAt? c).getD []

/-- The height of a level's floor, or of what is left of it at a point
outside its tile. -/
def floorHeight (b : Board) (c : Cell) (level : Level) (x z : Single) : Single :=
  let (centerX, centerZ) := b.grid.tileCenter c
  level.floor.heightAt (x - centerX) (z - centerZ)

end Board

end Battlemap
