import Battlemap.Build.RayStack
import Battlemap.Number.Double

/-!
# `Battlemap.Build.LayerStatistics`: what the rays of a tile say of a level

For each level of a sampled tile and each of its two sides: mean and
standard deviation of the heights, and the solid that most rays hit.
Only surfaces near enough to horizontal count. Sums are formed in
double precision, ray by ray.
-/

set_option autoImplicit false

namespace Battlemap

/-- What is added to the standard deviation when a height is accepted,
`10 ^ -5`. -/
def acceptanceSlack : Single := ⟨0x3727c5ac⟩

/-- Whether a solid was hit more often than another one, or as often with
a lower index. -/
def isAheadOf (hits : List Nat) (a b : Nat) : Bool :=
  decide (hits.count b < hits.count a) || (hits.count a == hits.count b && decide (a < b))

/-- The solid that was hit most often, the lowest index among equals. -/
def mostFrequent (hits : List Nat) : Option Nat :=
  hits.eraseDups.foldl
    (fun best solid =>
      match best with
      | none => some solid
      | some other => if isAheadOf hits solid other then some solid else best)
    none

/-- The statistics of the floors, or of the ceilings, of a level. -/
structure SideStatistics where
  mean : Single
  deviation : Single
  count : Nat
  /-- The solid that carries this side, if any surface counts. -/
  dominant : Option Nat
deriving DecidableEq, Inhabited

namespace SideStatistics

/-- The statistics of no surface at all. -/
def none : SideStatistics := ⟨.zero, .zero, 0, Option.none⟩

/-- Whether a surface is near enough to horizontal. -/
def counts (minNormalY : Single) (f : Fragment) : Bool :=
  decide (minNormalY < f.normal.y.abs)

/-- The sums of the heights and of their squares. -/
def sums (fragments : List Fragment) : Float × Float :=
  fragments.foldl
    (fun (sum, squares) f =>
      let height := f.height.toDouble
      (sum + height, squares + height * height))
    (0.0, 0.0)

/-- The statistics of some surfaces. -/
def of (minNormalY : Single) (fragments : List Fragment) : SideStatistics :=
  let counted := fragments.filter (counts minNormalY)
  if counted.isEmpty then none
  else
    let (sum, squares) := sums counted
    let count := Double.ofInt counted.length
    let mean := sum / count
    let variance := squares / count - mean * mean
    { mean := .ofDouble mean
      deviation := .ofDouble (if 0.0 < variance then variance else 0.0).sqrt
      count := counted.length
      dominant := mostFrequent (counted.map Fragment.solid) }

/-- Whether a height is within one deviation of the mean. -/
def accepts (s : SideStatistics) (height : Single) : Bool :=
  s.count != 0 && decide ((height - s.mean).abs ≤ s.deviation + acceptanceSlack)

end SideStatistics

/-- The statistics of a level. -/
structure LayerStatistics where
  floor : SideStatistics
  ceiling : SideStatistics
  /-- The lowest floor, however steep. -/
  floorMin : Single
  /-- The highest ceiling, or negative infinity. -/
  ceilingMax : Single
deriving DecidableEq, Inhabited

namespace LayerStatistics

/-- The statistics of a level of a tile. -/
def of (minNormalY : Single) (t : SampledTile) (layer : Nat) : LayerStatistics :=
  let floors := t.slot (2 * layer)
  let ceilings := t.slot (2 * layer + 1)
  { floor := .of minNormalY floors
    ceiling := .of minNormalY ceilings
    floorMin := floors.foldl (fun low f => low.min f.height) .infinity
    ceilingMax := ceilings.foldl (fun high f => high.max f.height) .negInfinity }

end LayerStatistics

/-- A sampled tile with the statistics of its levels. -/
structure MeasuredTile where
  sampled : SampledTile
  layers : Array LayerStatistics

/-- The tile with the statistics of its levels. -/
def SampledTile.measured (t : SampledTile) (minNormalY : Single) : MeasuredTile :=
  ⟨t, (Array.range t.layerCount).map (LayerStatistics.of minNormalY t)⟩

end Battlemap
