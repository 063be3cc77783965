import Battlemap.Board.Basic

/-!
# `Battlemap.Board.Consistency`: which arrays make up a map

The arrays of a map have to agree: as many tiles as the grid has cells,
every run of levels inside the level array, and every level of a run
with data that records the level's position in its tile. `ofParts`
builds a board from arrays that do and otherwise reports the first
defect: the tile count, then tile by tile the run and the levels of the
run from the bottom up.
-/

set_option autoImplicit false

namespace Battlemap

/-- What can be wrong with the arrays of a map. -/
inductive Defect where
  /-- The run of levels of a tile leaves the level array. -/
  | levelRange (tile : Nat) (start count : UInt32) (levels : Nat)
  /-- A level of a tile names data that is not there. -/
  | dataIndex (level : Nat) (missing : UInt32)
  /-- A level of a tile records another position than its own. -/
  | levelPosition (tile position : Nat) (stored : UInt16)
  /-- The tile array does not fit the grid. -/
  | tileCount (expected actual : Nat)
deriving DecidableEq

/-- The message of a defect. -/
def Defect.message : Defect → String
  | levelRange tile start count levels =>
    s!"tile {tile} level range {start}+{count} exceeds {levels} levels"
  | dataIndex level missing => s!"level {level} references missing level data {missing}"
  | levelPosition tile position stored =>
    s!"tile {tile} level at position {position} stores level index {stored}"
  | tileCount expected actual => s!"tile array holds {actual} tiles, grid needs {expected}"

namespace Board

/-- What is wrong with the level at a position of a tile whose run lies
inside the level array. -/
def levelDefect? (b : Board) (index : Nat) (tile : Tile) (position : Nat) : Option Defect :=
  match b.levels[tile.first + position]? with
  | none => none
  | some level =>
    match b.data[level.dataIndex.toNat]? with
    | none => some (.dataIndex (tile.first + position) level.dataIndex)
    | some data =>
      if data.header.position.toNat = position then none
      else some (.levelPosition index position data.header.position)

/-- The first thing wrong with a tile. -/
def tileDefect? (b : Board) (index : Nat) (tile : Tile) : Option Defect :=
  if b.levels.size < tile.first + tile.count then
    some (.levelRange index tile.levelStart tile.levelCount b.levels.size)
  else (List.range tile.count).findSome? (b.levelDefect? index tile)

/-- The first thing wrong with the board. -/
def defect? (b : Board) : Option Defect :=
  if b.tiles.size = b.grid.tileCount then
    b.tiles.toList.zipIdx.findSome? fun (tile, index) => b.tileDefect? index tile
  else some (.tileCount b.grid.tileCount b.tiles.size)

/-- The board with the given parts, if they agree. -/
def ofParts (grid : Grid) (payloadSize : UInt32) (tiles : Array Tile) (levels : Array Level)
    (data : Array LevelData) : Except Defect Board :=
  let board : Board := ⟨grid, payloadSize, tiles, levels, data⟩
  match board.defect? with
  | some defect => .error defect
  | none => .ok board

end Board

end Battlemap
