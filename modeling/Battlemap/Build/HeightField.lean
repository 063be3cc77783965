import Battlemap.Build.LayerStatistics

/-!
# `Battlemap.Build.HeightField`: the surfaces of a level over the map

The accepted heights of one level index form a field over the rays of
all tiles, one field for floors and one for ceilings. Smoothing replaces
every valid height by the average of the valid heights in the three by
three window around it, so that neighbouring tiles meet without a seam.
At the edge of the map the window is clamped, and cells that it covers
twice count twice. Invalid cells, and the solid that a cell names, stay
as they are.
-/

set_option autoImplicit false

namespace Battlemap

/-- The height that one ray contributes to a field. -/
structure FieldSample where
  height : Single
  valid : Bool
  /-- The solid that carries this side of the level in the ray's tile. -/
  solid : Option Nat
deriving DecidableEq

namespace FieldSample

/-- No height. -/
def absent : FieldSample := ⟨.zero, false, none⟩

instance : Inhabited FieldSample := ⟨absent⟩

/-- The sample of a ray: its fragment, if the statistics of its tile
accept it. -/
def of (minNormalY : Single) (side : SideStatistics) (fragment : Option Fragment) :
    FieldSample :=
  match fragment with
  | some f =>
    if SideStatistics.counts minNormalY f && side.accepts f.height then
      ⟨f.height, true, side.dominant⟩
    else absent
  | none => absent

end FieldSample

/-- A field of samples, row by row. -/
structure HeightField where
  columns : Nat
  rows : Nat
  samples : Array FieldSample
deriving DecidableEq

namespace HeightField

/-- The sample at a place of the field. -/
def sample (f : HeightField) (row column : Nat) : FieldSample :=
  f.samples.getD (row * f.columns + column) .absent

/-- The place that is some steps away from another one on an axis with `count` places, or the
end of the axis if it would lie beyond. -/
def placeBeside (count place : Nat) (step : Int) : Nat :=
  let target := (place : Int) + step
  let last := (count : Int) - 1
  (if target < 0 then 0 else if last < target then last else target).toNat

/-- The steps of a window along one axis. -/
def windowSteps : List Int := [-1, 0, 1]

/-- What the valid heights of a window add up to, and how many they are. -/
structure Tally where
  sum : Single
  count : UInt32

namespace Tally

/-- No height yet. -/
def empty : Tally := ⟨.zero, 0⟩

/-- The tally with one more sample, which counts if it is valid. -/
def add (t : Tally) (sample : FieldSample) : Tally :=
  if sample.valid then ⟨t.sum + sample.height, t.count + 1⟩ else t

/-- The average of the heights. -/
def average (t : Tally) : Single := t.sum / .ofUInt32 t.count

end Tally

/-- The tally of the window around a place, row by row. -/
def tally (f : HeightField) (row column : Nat) : Tally :=
  windowSteps.foldl
    (fun t dz =>
      windowSteps.foldl
        (fun t dx =>
          t.add (f.sample (placeBeside f.rows row dz) (placeBeside f.columns column dx)))
        t)
    .empty

/-- Smooth one cell of the output. The heights are those of the field itself, of which the
output is a copy that is smoothed in part. -/
def smoothCell (f : HeightField) (row : Nat) (out : Array FieldSample) (column : Nat) :
    Array FieldSample :=
  if (f.sample row column).valid then
    out.modify (row * f.columns + column) fun cell =>
      { cell with height := (f.tally row column).average }
  else out

/-- Smooth one row of the output, cell by cell. -/
def smoothRow (f : HeightField) (out : Array FieldSample) (row : Nat) : Array FieldSample :=
  (List.range f.columns).foldl (f.smoothCell row) out

/-- The smoothed field: a copy in which the cells are smoothed one by one. -/
def smoothed (f : HeightField) : HeightField :=
  { f with samples := (List.range f.rows).foldl f.smoothRow f.samples }

end HeightField

/-- The two sides of a level index over the whole map. -/
structure LayerField where
  floor : HeightField
  ceiling : HeightField

namespace LayerField

/-- The sample of the floors or ceilings of a level at a place of the
map: that of the ray of the tile there. -/
def sampleAt (minNormalY : Single) (tiles : Array MeasuredTile) (g : Grid) (layer slot : Nat)
    (side : LayerStatistics → SideStatistics) (row column : Nat) : FieldSample :=
  match tiles[row / raysPerAxis * g.width.toNat + column / raysPerAxis]? with
  | none => .absent
  | some tile =>
    match tile.layers[layer]?,
        tile.sampled.rays[row % raysPerAxis * raysPerAxis + column % raysPerAxis]? with
    | some statistics, some ray => .of minNormalY (side statistics) ray[slot]?
    | _, _ => .absent

/-- The accepted heights of one side of a level index, before smoothing. -/
def rawSide (minNormalY : Single) (tiles : Array MeasuredTile) (g : Grid) (layer slot : Nat)
    (side : LayerStatistics → SideStatistics) : HeightField :=
  let columns := g.width.toNat * raysPerAxis
  let rows := g.height.toNat * raysPerAxis
  { columns := columns
    rows := rows
    samples := (Array.range (columns * rows)).map fun place =>
      sampleAt minNormalY tiles g layer slot side (place / columns) (place % columns) }

/-- The smoothed fields of a level index. -/
def of (minNormalY : Single) (tiles : Array MeasuredTile) (g : Grid) (layer : Nat) :
    LayerField where
  floor := (rawSide minNormalY tiles g layer (2 * layer) LayerStatistics.floor).smoothed
  ceiling := (rawSide minNormalY tiles g layer (2 * layer + 1) LayerStatistics.ceiling).smoothed

end LayerField

end Battlemap
