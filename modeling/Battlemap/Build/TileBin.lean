import Battlemap.Build.Solid
import Battlemap.Grid

/-!
# `Battlemap.Build.TileBin`: the solids near a tile

Before the tiles are sampled, solid after solid is registered in the
bins of the tiles that it can reach: boxes as a whole, meshes triangle by
triangle. The range of tiles of a box is rounded to the nearest tile
edges and then widened, so a tile that is covered in part is not missed
as long as the edges fit into signed words (`Proofs.Build.Reach`); one
too many only costs a ray test. What a tile holds in the end is the
subject of `Proofs.Build.Registration`.
-/

set_option autoImplicit false

namespace Battlemap

/-- A range of coordinates along one axis, both ends included. -/
structure AxisRange where
  low : UInt32
  high : UInt32
deriving DecidableEq, Repr

/-- The tile edge nearest to a position along one axis. -/
def nearestEdge (position origin tileSize : Single) : Int64 :=
  ((position - origin) / tileSize + .half).floor.toInt64

/-- The tiles of one axis between two positions. -/
def axisRange? (low high origin tileSize : Single) (count : UInt32) : Option AxisRange :=
  let first := nearestEdge low origin tileSize
  let last := nearestEdge high origin tileSize
  let last := if first = last then last + 1 else last
  let first := first - 1
  let final := Int64.ofNat count.toNat - 1
  if last < 0 ∨ final < first then none
  else
    some ⟨(if first < 0 then 0 else first).toUInt64.toUInt32,
      (if final < last then final else last).toUInt64.toUInt32⟩

/-- A rectangle of tiles, both ends included. -/
structure TileRange where
  columns : AxisRange
  rows : AxisRange
deriving DecidableEq, Repr

/-- The tiles of the rectangle, row by row. -/
def TileRange.cells (r : TileRange) : List Cell :=
  Grid.rectangle ⟨r.columns.low, r.rows.low⟩ ⟨r.columns.high, r.rows.high⟩

/-- The tiles that a box can reach into. -/
def Grid.tileRange? (g : Grid) (bounds : Box) : Option TileRange := do
  let columns ← axisRange? bounds.min.x bounds.max.x g.origin.x g.tileSize g.width
  let rows ← axisRange? bounds.min.z bounds.max.z g.origin.z g.tileSize g.height
  return ⟨columns, rows⟩

/-- The solids that can reach a tile. Every list is in the order in which
the solids, or the polygons of a solid, are registered. The rays and
levels of a tile are not in its bin: the later steps of a build put them
around it. -/
structure TileBin where
  cell : Cell
  boxes : List Nat
  /-- Mesh solids with those of their polygons that can reach the tile, of
  which there is at least one; sorted by solid. -/
  meshes : List (Nat × List Nat)
  destructibles : List (Nat × Box)

/-- What is registered in the bins of some tiles. -/
inductive BinEntry where
  | box (solid : Nat)
  | polygon (solid place : Nat)
  | destructible (solid : Nat) (bounds : Box)

namespace TileBin

/-- A bin in which nothing is registered. -/
def fresh (c : Cell) : TileBin := ⟨c, [], [], []⟩

/-- The polygons of meshes with one more, behind those of its solid. -/
def addPolygon (solid place : Nat) : List (Nat × List Nat) → List (Nat × List Nat)
  | [] => [(solid, [place])]
  | (other, places) :: rest =>
    if solid < other then (solid, [place]) :: (other, places) :: rest
    else if solid = other then (other, places ++ [place]) :: rest
    else (other, places) :: addPolygon solid place rest

/-- Register an entry. -/
def add (bin : TileBin) : BinEntry → TileBin
  | .box solid => { bin with boxes := bin.boxes ++ [solid] }
  | .polygon solid place => { bin with meshes := addPolygon solid place bin.meshes }
  | .destructible solid bounds =>
    { bin with destructibles := bin.destructibles ++ [(solid, bounds)] }

/-- All solids of the bin in ascending order, each once. -/
def solids (bin : TileBin) : List Nat :=
  (bin.boxes ++ bin.meshes.map Prod.fst).eraseDups.mergeSort

end TileBin

/-- Register an entry in the bins of all tiles that some bounds can reach
into. -/
def Grid.register (g : Grid) (bins : Array TileBin) (bounds : Box) (entry : BinEntry) :
    Array TileBin :=
  match g.tileRange? bounds with
  | none => bins
  | some range => range.cells.foldl (fun bins c => bins.modify (g.tileIndex c) (·.add entry)) bins

/-- The entry of a polygon, which comes with its place, and its bounds. -/
def BinEntry.ofPolygon (solid : Nat) (polygon : Polygon × Nat) : Box × BinEntry :=
  (polygon.1.bounds, .polygon solid polygon.2)

/-- The entries of a solid with their bounds: a box, or the polygons of a
mesh one by one, and the solid once more if it can be destroyed. -/
def Solid.entries (solid : Solid) (index : Nat) : List (Box × BinEntry) :=
  let parts := match solid.mesh with
    | some mesh => mesh.polygons.toList.zipIdx.map (BinEntry.ofPolygon index)
    | none => [(solid.bounds, .box index)]
  if solid.isDestructible then parts ++ [(solid.bounds, .destructible index solid.bounds)]
  else parts

/-- The bins of all tiles in row-major order. -/
def binSolids (solids : Array Solid) (g : Grid) : Array TileBin :=
  let entries := solids.toList.zipIdx.flatMap fun (solid, index) => solid.entries index
  entries.foldl (fun bins (bounds, entry) => g.register bins bounds entry)
    (g.cells.map TileBin.fresh).toArray

end Battlemap
