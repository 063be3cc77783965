import Battlemap.Build.Layer
import Std.Data.TreeMap

/-!
# `Battlemap.Build.Bond`: what holds what up

Two solids of a tile that touch form a bond, which has a direction from
either one to the other. A solid's integrity is the number of its
neighbours above it and to its sides; a solid with nothing below it
belongs to the world and cannot be destroyed. However many tiles two
solids share, they count as one bond.

Each level takes the structure of the destructible solids that reach
into it: the most binding kind and the least integrity among them.
-/

set_option autoImplicit false

namespace Battlemap

/-- A direction along one of the axes. -/
inductive CardinalDirection where
  | above
  | below
  | left
  | right
  | front
  | back
deriving DecidableEq, Repr

namespace CardinalDirection

/-- The direction from one point to another, along the axis on which they
are farthest apart; of equal axes Y goes before X and X before Z. -/
def between (a b : Vec3) : CardinalDirection :=
  let delta := b - a
  let x := delta.x.abs
  let y := delta.y.abs
  let z := delta.z.abs
  if x ≤ y ∧ z ≤ y then if Single.zero ≤ delta.y then above else below
  else if z ≤ x then if Single.zero ≤ delta.x then right else left
  else if Single.zero ≤ delta.z then front
  else back

/-- Whether a neighbour in this direction counts towards a solid's
integrity. -/
def supports : CardinalDirection → Bool
  | above | left | right => true
  | below | front | back => false

/-- The name of the direction. -/
def name : CardinalDirection → String
  | above => "Above"
  | below => "Below"
  | left => "Left"
  | right => "Right"
  | front => "Front"
  | back => "Back"

end CardinalDirection

/-- How far the bounds of solids grow before they are tested for contact,
one hundredth. -/
def contactInflation : Single := ⟨0x3c23d70a⟩

/-- How far a level's span shrinks at both ends before solids are tested
for reaching into it, `10 ^ -3`. -/
def spanMargin : Single := ⟨0x3a83126f⟩

/-- A solid that touches another one. -/
@[ext] structure Bond where
  owner : Nat
  neighbour : Nat
  /-- The direction from the owner to the neighbour. -/
  direction : CardinalDirection
deriving DecidableEq, Repr

/-- A solid's bounds as the contact test sees them. -/
structure ContactBody where
  index : Nat
  inflated : Box
  center : Vec3

/-- A solid as the contact test sees it. -/
def ContactBody.of (solid : Solid) (index : Nat) : ContactBody :=
  ⟨index, solid.bounds.inflated contactInflation, solid.bounds.center⟩

/-- The bodies of all solids. -/
def contactBodies (solids : Array Solid) : Array ContactBody :=
  solids.mapIdx fun index solid => .of solid index

/-- The two bonds between solids that touch. -/
def ContactBody.bonds (a b : ContactBody) : List Bond :=
  if a.inflated.intersects b.inflated then
    [⟨a.index, b.index, .between a.center b.center⟩,
     ⟨b.index, a.index, .between b.center a.center⟩]
  else []

/-- The bonds between any two of some solids. -/
def bondsAmong : List ContactBody → List Bond
  | [] => []
  | a :: rest => rest.flatMap a.bonds ++ bondsAmong rest

/-- The bonds in a tile. -/
def TileBin.bonds (bin : TileBin) (bodies : Array ContactBody) : List Bond :=
  bondsAmong (bin.solids.filterMap fun index => bodies[index]?)

/-- The bonds in all tiles, each once, by owner and neighbour. -/
def collectBonds (bodies : Array ContactBody) (bins : List TileBin) : List Bond :=
  let table : Std.TreeMap Nat Bond :=
    bins.foldl
      (fun table bin =>
        (bin.bonds bodies).foldl
          (fun table bond => table.insert (bond.owner * bodies.size + bond.neighbour) bond) table)
      ∅
  table.values

/-- The kind that the shape of a solid suggests: flat solids are floors,
upright ones walls. -/
def Box.shapeKind (bounds : Box) : StructuralKind :=
  let extent := bounds.extent
  let top := extent.x * extent.z
  let front := extent.x * extent.y
  let side := extent.y * extent.z
  if front ≤ top ∧ side ≤ top then .floor else .wall

/-- The structure of a solid, given all bonds. -/
def solidStructure (bonds : List Bond) (solid : Solid) (index : Nat) : LayerStructure :=
  let own := bonds.filter fun bond => bond.owner == index
  { kind :=
      if own.any fun bond => bond.direction == .below then solid.bounds.shapeKind else .world
    integrity := Int32.ofNat (own.countP fun bond => bond.direction.supports) }

/-- The structure of every solid. -/
def solidStructures (solids : Array Solid) (bins : List TileBin) : Array LayerStructure :=
  let bonds := collectBonds (contactBodies solids) bins
  solids.mapIdx fun index solid => solidStructure bonds solid index

/-! ### Structure of levels -/

/-- The structure of a level with one more solid in it. -/
def LayerStructure.merge (a : Option LayerStructure) (b : LayerStructure) :
    Option LayerStructure :=
  match a with
  | none => some b
  | some a =>
    some ⟨a.kind.combine b.kind, if b.integrity < a.integrity then b.integrity else a.integrity⟩

/-- The box that a solid has to reach into to be part of a level. -/
def Layer.span (l : Layer) (g : Grid) (footprint : Box) : Box :=
  let top := ((l.baseHeight + l.roofDelta).min g.maxHeight).max l.baseHeight
  .ofCorners ⟨footprint.min.x, l.baseHeight + spanMargin, footprint.min.z⟩
    ⟨footprint.max.x, top - spanMargin, footprint.max.z⟩

/-- The level with the structure of the destructible solids in it. -/
def Layer.baked (l : Layer) (g : Grid) (structures : Array LayerStructure) (bin : TileBin) :
    Layer :=
  let span := l.span g (g.tileBounds bin.cell)
  let inside := (bin.destructibles.filter fun (_, bounds) => bounds.intersects span).map Prod.fst
  { l with
    destructibles := l.destructibles ++ inside
    structural :=
      (inside.filterMap fun index => structures[index]?).foldl LayerStructure.merge l.structural }

/-- The tile with the structure of its levels. -/
def FittedTile.baked (t : FittedTile) (g : Grid) (structures : Array LayerStructure) :
    FittedTile :=
  { t with layers := t.layers.map fun layer => layer.baked g structures t.bin }

/-- The tiles with the structure of their levels. -/
def bakeStructure (solids : Array Solid) (g : Grid) (tiles : Array FittedTile) :
    Array FittedTile :=
  let structures := solidStructures solids (tiles.toList.map FittedTile.bin)
  tiles.map fun tile => tile.baked g structures

end Battlemap
