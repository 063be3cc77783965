import Battlemap.Build.TileBin
import Battlemap.Geometry.Ray

/-!
# `Battlemap.Build.RayStack`: sampling a tile by rays

A tile is sampled by a square of vertical rays. A ray collects a
fragment at every surface it crosses, from the bottom up, and keeps an
alternating sequence of them: a surface that faces down lets the ray
into a solid and opens a level, one that faces up closes it again, and
fragments out of turn, where solids overlap, are dropped. The fragments
of level `l` are then number `2 l`, its floor, and number `2 l + 1`, its
ceiling.

At equal heights a solid is left before another is entered, so solids
stacked on one another stay separate levels. A tile with a surface that
is not finite, or with too many levels, counts as not sampled.
-/

set_option autoImplicit false

namespace Battlemap

/-- The number of rays along each axis of a tile. -/
def raysPerAxis : Nat := 16

/-- The number of rays of a tile. -/
def raysPerTile : Nat := raysPerAxis * raysPerAxis

/-- The number of levels beyond which a tile counts as malformed. -/
def levelLimit : Nat := 64

/-- A surface that a ray crosses. -/
structure Fragment where
  normal : Vec3
  height : Single
  /-- The place of the solid in the list of solids. -/
  solid : Nat
deriving DecidableEq, Inhabited

namespace Fragment

/-- Whether the ray enters a solid here: the surface faces down. -/
def isEntry (f : Fragment) : Bool := decide (f.normal.y < .zero)

/-- Whether height and normal are finite. -/
def isFinite (f : Fragment) : Bool := f.height.isFinite && f.normal.isFinite

/-- Whether a fragment may stand before another one: it is lower, or at
the same height and not an entry before an exit. -/
def precedes (a b : Fragment) : Bool :=
  if a.height.totalKey = b.height.totalKey then !a.isEntry || b.isEntry
  else a.height.totalKey < b.height.totalKey

end Fragment

/-- How far along its axis of the tile ray `i` stands. -/
def rayOffset (i : Nat) : Single :=
  (.ofUInt64 i.toUInt64 + .half) / .ofUInt64 raysPerAxis.toUInt64

/-- The fragments that alternate between entries and exits; `inside` says
whether the last one kept was an entry. -/
def alternating (inside : Bool) : List Fragment → List Fragment
  | [] => []
  | f :: rest =>
    if f.isEntry != inside then f :: alternating (!inside) rest else alternating inside rest

/-- The fragments kept of a sorted sequence. -/
def parityFilter (fragments : List Fragment) : List Fragment := alternating false fragments

/-- The fragments of a ray at a box. A box without height holds no
volume. -/
def boxFragments (ray : VerticalRay) (index : Nat) (bounds : Box) : List Fragment :=
  if bounds.max.y ≤ bounds.min.y then []
  else
    match ray.meetBox bounds with
    | some (entry, exit) => [⟨.down, entry, index⟩, ⟨.up, exit, index⟩]
    | none => []

/-- The fragment of a ray at a polygon. -/
def polygonFragment? (ray : VerticalRay) (index : Nat) (polygon : Polygon) : Option Fragment :=
  (ray.meetTriangle polygon.a polygon.b polygon.c).map fun height =>
    ⟨polygon.plane.normal, height, index⟩

/-- The boxes and polygons of a bin, looked up among the solids. -/
structure Targets where
  boxes : List (Nat × Box)
  polygons : List (Nat × Polygon)

/-- The boxes and polygons of a bin. -/
def TileBin.targets (bin : TileBin) (solids : Array Solid) : Targets where
  boxes := bin.boxes.filterMap fun index => solids[index]?.map fun solid => (index, solid.bounds)
  polygons := bin.meshes.flatMap fun (index, places) =>
    match solids[index]?.bind Solid.mesh with
    | some mesh => places.filterMap fun place => mesh.polygons[place]?.map fun p => (index, p)
    | none => []

/-- The fragments of a ray, from the bottom up. -/
def castRay (targets : Targets) (ray : VerticalRay) : List Fragment :=
  let boxes := targets.boxes.flatMap fun (index, bounds) => boxFragments ray index bounds
  let polygons := targets.polygons.filterMap fun (index, polygon) =>
    polygonFragment? ray index polygon
  (boxes ++ polygons).mergeSort Fragment.precedes

/-- Ray `n` of a tile, counted row by row. -/
def Grid.ray (g : Grid) (c : Cell) (start : Single) (n : Nat) : VerticalRay :=
  { x := Grid.tileEdge g.origin.x g.tileSize c.x + rayOffset (n % raysPerAxis) * g.tileSize
    z := Grid.tileEdge g.origin.z g.tileSize c.z + rayOffset (n / raysPerAxis) * g.tileSize
    start := start }

/-- A tile after sampling. -/
structure SampledTile where
  bin : TileBin
  /-- The fragments kept of each ray; no rays if sampling failed. -/
  rays : Array (Array Fragment)
  /-- The least number of levels that covers every ray. -/
  layerCount : Nat

namespace SampledTile

/-- A tile whose sampling failed. -/
def unsampled (bin : TileBin) : SampledTile := ⟨bin, #[], 0⟩

/-- The number of levels that some rays need. -/
def layersOf (rays : Array (Array Fragment)) : Nat :=
  rays.foldl (fun most ray => max most ((ray.size + 1) / 2)) 0

/-- The fragments of all rays of a tile, or `none` if one of them is not
finite. -/
def castAll (solids : Array Solid) (g : Grid) (start : Single) (bin : TileBin) :
    Option (List (Array Fragment)) :=
  let targets := bin.targets solids
  (List.range raysPerTile).mapM fun n =>
    let fragments := castRay targets (g.ray bin.cell start n)
    if fragments.all Fragment.isFinite then some (parityFilter fragments).toArray else none

/-- Sample a tile. -/
def of (solids : Array Solid) (g : Grid) (start : Single) (bin : TileBin) : SampledTile :=
  match castAll solids g start bin with
  | none => unsampled bin
  | some rays =>
    let rays := rays.toArray
    let layers := layersOf rays
    if levelLimit < layers then unsampled bin else ⟨bin, rays, layers⟩

/-- The fragments at a place of the rays, ray by ray. -/
def slot (t : SampledTile) (place : Nat) : List Fragment :=
  t.rays.toList.filterMap fun ray => ray[place]?

end SampledTile

end Battlemap
