import Battlemap.Board.Basic

/-!
# `Battlemap.Board.Statistics`: counting a map

The level counts run over the level array, whether a tile refers to the
level or not, and leave out levels without data.
-/

set_option autoImplicit false

namespace Battlemap

/-- The counts of a map. -/
structure BoardStatistics where
  tiles : Nat
  occupiedTiles : Nat
  levels : Nat
  maxLevelsPerTile : Nat
  destructibleLevels : Nat
  structuralLevels : Nat
  destroyedLevels : Nat
deriving DecidableEq, Repr

namespace Board

/-- How many levels have data with a flag. -/
def levelsWith (b : Board) (flag : UInt32) : Nat :=
  b.levels.countP fun level =>
    match b.data[level.dataIndex.toNat]? with
    | some data => data.header.hasFlag flag
    | none => false

/-- The counts of the map. -/
def statistics (b : Board) : BoardStatistics where
  tiles := b.tiles.size
  occupiedTiles := b.tiles.countP fun tile => tile.count != 0
  levels := b.levels.size
  maxLevelsPerTile := b.tiles.foldl (fun most tile => max most tile.count) 0
  destructibleLevels := b.levelsWith destructibleFlag
  structuralLevels := b.levelsWith structuralFlag
  destroyedLevels := b.levelsWith destroyedFlag

end Board

end Battlemap
