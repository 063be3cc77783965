import Battlemap.Build.Bond
import Battlemap.Build.Config

/-!
# `Battlemap.Build.Assembly`: from solids to a map

A build bins the solids, samples every tile, fits its levels, adds their
structure and packs them, tile by tile, into the arrays of a board. A
level inherits the gameplay data of the solid that carries its floor, or
else its ceiling; the header is then completed.
-/

set_option autoImplicit false

namespace Battlemap

/-- The header of a level: that of its solid with the level's position,
flags and structure. -/
def Layer.header (l : Layer) (inherited : LevelHeader) (position : Nat) : LevelHeader :=
  let given := l.structural.getD ⟨.notStructural, 0⟩
  let header := { inherited with position := position.toUInt16 }
  let header := header.setFlag destroyedFlag false
  let header := header.setFlag roofValidFlag l.ceiling.isValid
  let header := header.setFlag destructibleFlag !l.destructibles.isEmpty
  let header := { header with kind := given.kind, integrity := given.integrity }
  header.setFlag structuralFlag (given.kind != .notStructural)

/-- The data of the solid that a level inherits from; plain data if no
solid carries the level. -/
def Layer.inherited (l : Layer) (solids : Array Solid) (payloadSize : Nat) : LevelData :=
  let data := match (l.floorSolid.or l.ceilingSolid).bind fun index => solids[index]? with
    | some solid => solid.data
    | none => ⟨.plain, []⟩
  data.resized payloadSize

/-- The gameplay data of a level. -/
def Layer.levelData (l : Layer) (solids : Array Solid) (payloadSize : Nat) (position : Nat) :
    LevelData :=
  let data := l.inherited solids payloadSize
  { data with header := l.header data.header position }

/-- The record of a level with the given data. -/
def Layer.record (l : Layer) (dataIndex : Nat) : Level :=
  ⟨l.floor, l.ceiling, l.baseHeight, l.roofDelta, dataIndex.toUInt32, 0⟩

/-- The arrays of a board, as they are filled. -/
structure Packing where
  tiles : Array Tile
  levels : Array Level
  data : Array LevelData

namespace Packing

/-- Nothing packed yet. -/
def empty : Packing := ⟨#[], #[], #[]⟩

/-- Pack a level behind the others; its data has the next free index. -/
def addLevel (solids : Array Solid) (payloadSize : Nat) (p : Packing) (entry : Layer × Nat) :
    Packing :=
  let (layer, position) := entry
  { p with
    levels := p.levels.push (layer.record p.data.size)
    data := p.data.push (layer.levelData solids payloadSize position) }

/-- Pack a tile and its levels behind the others. -/
def addTile (solids : Array Solid) (payloadSize : Nat) (p : Packing) (layers : List Layer) :
    Packing :=
  let tile : Tile := ⟨layers.length.toUInt32, p.levels.size.toUInt32⟩
  layers.zipIdx.foldl (addLevel solids payloadSize) { p with tiles := p.tiles.push tile }

/-- The packed levels of all tiles. -/
def ofTiles (solids : Array Solid) (payloadSize : Nat) (tiles : List (List Layer)) : Packing :=
  tiles.foldl (addTile solids payloadSize) empty

end Packing

namespace Builder

/-- The levels of every tile of a grid, row by row. -/
def layers (b : Builder) (g : Grid) : List (List Layer) :=
  let sampled := (binSolids b.solids g).map (SampledTile.of b.solids g b.config.minRayHeight)
  let fitted := fitLayers b.config.minNormalY g sampled
  (bakeStructure b.solids g fitted).toList.map FittedTile.layers

/-- The board with the given levels in its tiles. -/
def assemble (b : Builder) (g : Grid) (tiles : List (List Layer)) : Except BuildError Board :=
  let packing := Packing.ofTiles b.solids b.config.payloadSize.toNat tiles
  match Board.ofParts g b.config.payloadSize packing.tiles packing.levels packing.data with
  | .ok board => .ok board
  | .error defect => .error (.inconsistent defect)

/-- Build the map. -/
def build (b : Builder) : Except BuildError Board := do
  let g ← b.grid
  b.assemble g (b.layers g)

end Builder

end Battlemap
