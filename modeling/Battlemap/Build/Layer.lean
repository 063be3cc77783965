import Battlemap.Build.HeightField
import Battlemap.Build.PlaneFit

/-!
# `Battlemap.Build.Layer`: the levels of a tile under construction

The levels of a tile are fitted from the bottom up. A level starts at
the lowest point of its smoothed floor, or at its lowest floor fragment
where no height was accepted, and ends at the highest point of its
smoothed ceiling. Its planes are fitted through the smoothed heights of
the tile's own rays.

A level without thickness becomes a thin slab and is the last one of
its tile: what is above it rests on surfaces that cannot be told apart.
-/

set_option autoImplicit false

namespace Battlemap

/-- The least thickness of a level, `10 ^ -3`. -/
def leastThickness : Single := ⟨0x3a83126f⟩

/-- The thickness of a slab, one tenth. -/
def slabThickness : Single := ⟨0x3dcccccd⟩

/-- What the structure says of a level. -/
structure LayerStructure where
  kind : StructuralKind
  integrity : Int32
deriving DecidableEq

/-- A level under construction. -/
structure Layer where
  floor : Plane
  ceiling : Plane
  baseHeight : Single
  roofDelta : Single
  floorSolid : Option Nat
  ceilingSolid : Option Nat
  /-- The destructible solids inside the level. -/
  destructibles : List Nat
  structural : Option LayerStructure
deriving DecidableEq

/-- The valid samples of a tile's own rays. -/
def HeightField.samplesOf (f : HeightField) (c : Cell) : List (Nat × FieldSample) :=
  (List.range raysPerTile).filterMap fun n =>
    let sample := f.sample (c.z.toNat * raysPerAxis + n / raysPerAxis)
      (c.x.toNat * raysPerAxis + n % raysPerAxis)
    if sample.valid then some (n, sample) else none

/-- The point of a sample, relative to the middle of its tile. -/
def samplePoint (tileSize : Single) (n : Nat) (sample : FieldSample) : Vec3 :=
  ⟨(rayOffset (n % raysPerAxis) - .half) * tileSize, sample.height,
    (rayOffset (n / raysPerAxis) - .half) * tileSize⟩

/-- What a tile sees of one side of a level: the points of its valid
samples and the solid that carries them. -/
structure LayerSide where
  points : List Vec3
  solid : Option Nat

/-- One side of a level of a tile, given the valid samples of its rays. Without any the
solid is the one that the statistics name. -/
def LayerSide.ofSamples (samples : List (Nat × FieldSample)) (tileSize : Single)
    (statistics : SideStatistics) : LayerSide where
  points := samples.map fun (n, sample) => samplePoint tileSize n sample
  solid := (samples.findSome? fun (_, sample) => sample.solid).or statistics.dominant

/-- One side of a level of a tile. -/
def LayerSide.of (f : HeightField) (c : Cell) (tileSize : Single) (statistics : SideStatistics) :
    LayerSide :=
  .ofSamples (f.samplesOf c) tileSize statistics

/-- What a tile sees of a level. -/
structure LayerView where
  floor : LayerSide
  ceiling : LayerSide
  statistics : LayerStatistics

/-- Both sides of a level of a tile. -/
def LayerView.of (c : Cell) (tileSize : Single) (field : LayerField)
    (statistics : LayerStatistics) : LayerView where
  floor := .of field.floor c tileSize statistics.floor
  ceiling := .of field.ceiling c tileSize statistics.ceiling
  statistics := statistics

namespace Layer

/-- The first of two heights that is finite, or the second one. -/
def finiteOr (height fallback : Single) : Single := if height.isFinite then height else fallback

/-- The height at which a level starts. -/
def lowest (floor : LayerSide) (statistics : LayerStatistics) : Single :=
  finiteOr (floor.points.foldl (fun low p => low.min p.y) .infinity) statistics.floorMin

/-- The height at which a level ends. -/
def highest (ceiling : LayerSide) (statistics : LayerStatistics) : Single :=
  finiteOr (ceiling.points.foldl (fun high p => high.max p.y) .negInfinity) statistics.ceilingMax

/-- Whether a level has an end, but no thickness. -/
def isDegenerate (low high : Single) : Bool :=
  high.isFinite && decide ((high - low).abs < leastThickness)

/-- The slab that stands for a level without thickness. -/
def slab (low : Single) (floorSolid ceilingSolid : Option Nat) : Layer where
  floor := .facingUp low
  ceiling := .facingDown (low + slabThickness)
  baseHeight := low
  roofDelta := slabThickness
  floorSolid := floorSolid
  ceilingSolid := ceilingSolid
  destructibles := []
  structural := none

/-- The ceiling plane through the ceiling points of a level: missing for
fewer than three points, horizontal where no plane fits. -/
def ceilingPlane (points : List Vec3) (low high : Single) : Plane :=
  if points.length < 3 then .invalid
  else
    match fitPlane points low with
    | some plane => plane.flipped
    | none => .facingDown high

/-- The level between two sides. -/
def between (floor ceiling : LayerSide) (low high : Single) : Layer :=
  let ceilingPlane := ceilingPlane ceiling.points low high
  { floor := (fitPlane floor.points low).getD (.facingUp low)
    ceiling := ceilingPlane
    baseHeight := low
    roofDelta := if ceilingPlane.isValid then high - low else .infinity
    floorSolid := floor.solid
    ceilingSolid := ceiling.solid
    destructibles := []
    structural := none }

/-- The levels of a tile, given what it sees of those that it was sampled
for, from the bottom up. A level without a start ends the list, and so
does a slab. -/
def stack : List LayerView → List Layer
  | [] => []
  | view :: rest =>
    let low := lowest view.floor view.statistics
    let high := highest view.ceiling view.statistics
    if !low.isFinite then []
    else if isDegenerate low high then [slab low view.floor.solid view.ceiling.solid]
    else between view.floor view.ceiling low high :: stack rest

/-- The levels of a tile, given the fields and statistics of the levels
that it was sampled for. -/
def fitAll (c : Cell) (tileSize : Single) (sides : List (LayerField × LayerStatistics)) :
    List Layer :=
  stack (sides.map fun (field, statistics) => .of c tileSize field statistics)

end Layer

/-- A measured tile with its levels. -/
structure FittedTile where
  measured : MeasuredTile
  layers : List Layer

namespace FittedTile

/-- The tile as it was sampled. -/
def sampled (t : FittedTile) : SampledTile := t.measured.sampled

/-- The solids near the tile. -/
def bin (t : FittedTile) : TileBin := t.sampled.bin

end FittedTile

/-- The smoothed fields of all level indices. -/
def layerFields (minNormalY : Single) (g : Grid) (tiles : Array MeasuredTile) :
    Array LayerField :=
  let count := tiles.foldl (fun most tile => max most tile.sampled.layerCount) 0
  (Array.range count).map (LayerField.of minNormalY tiles g)

/-- The tiles with their statistics and levels. -/
def fitLayers (minNormalY : Single) (g : Grid) (tiles : Array SampledTile) : Array FittedTile :=
  let measured := tiles.map fun tile => tile.measured minNormalY
  let fields := (layerFields minNormalY g measured).toList
  measured.map fun tile =>
    ⟨tile, Layer.fitAll tile.sampled.bin.cell g.tileSize (fields.zip tile.layers.toList)⟩

end Battlemap
