import Battlemap.Geometry.Box
import Battlemap.Number.Integral

/-!
# `Battlemap.Grid`: the tile grid

The grid lays `width` columns along X and `height` rows along Z from
its origin. Points are mapped to tiles by flooring and clamping, so a
point outside the grid belongs to the nearest border tile and a point
with a NaN to the first one.
-/

set_option autoImplicit false

namespace Battlemap

/-- The coordinates of a tile. -/
structure Cell where
  x : UInt32
  z : UInt32
deriving DecidableEq, Inhabited, Repr

/-- The layout of a map's tiles. -/
structure Grid where
  width : UInt32
  height : UInt32
  tileSize : Single
  /-- The corner with the least coordinates. -/
  origin : Vec3
  minHeight : Single
  maxHeight : Single
deriving DecidableEq, Inhabited, Repr

namespace Grid

/-- The largest width and height that the builder and the stitcher make:
tile coordinates are packed into 16 bits. -/
def dimensionLimit : Nat := 65535

/-- The number of tiles along one axis to cover a length; at least one. -/
def tilesAlong (length tileSize : Single) : UInt64 :=
  ((length / tileSize).ceil.max .one).toUInt64

/-- The numbers of columns and rows to cover a box. -/
def dimensionsFor (bounds : Box) (tileSize : Single) : UInt64 × UInt64 :=
  (tilesAlong bounds.extent.x tileSize, tilesAlong bounds.extent.z tileSize)

/-- The number of tiles. -/
def tileCount (g : Grid) : Nat := g.width.toNat * g.height.toNat

/-- The place of a tile in row-major order. -/
def tileIndex (g : Grid) (c : Cell) : Nat := c.z.toNat * g.width.toNat + c.x.toNat

/-- Whether a pair of coordinates is a tile. -/
def inBounds (g : Grid) (x z : Int) : Bool :=
  decide (0 ≤ x) && decide (0 ≤ z) && decide (x < g.width.toNat) && decide (z < g.height.toNat)

/-- Whether a cell is a tile. -/
def contains (g : Grid) (c : Cell) : Bool := g.inBounds c.x.toNat c.z.toNat

/-- The coordinate along one axis of the tile that a position belongs
to, clamped to the axis. -/
def clampedIndex (position origin tileSize : Single) (count : UInt32) : UInt32 :=
  let steps := ((position - origin) / tileSize).floor
  let index := steps.toIntWithin Int64.minValue.toInt Int64.maxValue.toInt
  (max 0 (min index (count.toNat - 1 : Nat))).toNat.toUInt32

/-- The tile that the point above `(x, z)` belongs to. -/
def cellAt (g : Grid) (x z : Single) : Cell :=
  ⟨clampedIndex x g.origin.x g.tileSize g.width, clampedIndex z g.origin.z g.tileSize g.height⟩

/-- The coordinates of the middle of a tile. -/
def tileCenter (g : Grid) (c : Cell) : Single × Single :=
  (g.origin.x + (.ofUInt32 c.x + .half) * g.tileSize,
   g.origin.z + (.ofUInt32 c.z + .half) * g.tileSize)

/-- The lower corner of a tile along one axis. -/
def tileEdge (origin tileSize : Single) (index : UInt32) : Single :=
  origin + .ofUInt32 index * tileSize

/-- The box of a tile, over the whole height of the map. -/
def tileBounds (g : Grid) (c : Cell) : Box :=
  let x := tileEdge g.origin.x g.tileSize c.x
  let z := tileEdge g.origin.z g.tileSize c.z
  .ofCorners ⟨x, g.minHeight, z⟩ ⟨x + g.tileSize, g.maxHeight, z + g.tileSize⟩

/-- The box of the whole grid. -/
def bounds (g : Grid) : Box :=
  .ofCorners ⟨g.origin.x, g.minHeight, g.origin.z⟩
    ⟨tileEdge g.origin.x g.tileSize g.width, g.maxHeight,
     tileEdge g.origin.z g.tileSize g.height⟩

/-- The cells of a rectangle in row-major order; none if an end lies
before its start. -/
def rectangle (low high : Cell) : List Cell :=
  (List.range' low.z.toNat (high.z.toNat + 1 - low.z.toNat)).flatMap fun z =>
    (List.range' low.x.toNat (high.x.toNat + 1 - low.x.toNat)).map fun x =>
      ⟨x.toUInt32, z.toUInt32⟩

/-- All cells in row-major order. -/
def cells (g : Grid) : List Cell :=
  (List.range g.height.toNat).flatMap fun z =>
    (List.range g.width.toNat).map fun x => ⟨x.toUInt32, z.toUInt32⟩

/-- The cardinal neighbours of a tile, in the order in which a collapse
reaches them. -/
def neighbours (g : Grid) (c : Cell) : List Cell :=
  let around : List (Int × Int) := [(-1, 0), (1, 0), (0, -1), (0, 1)]
  around.filterMap fun (dx, dz) =>
    let x := (c.x.toNat : Int) + dx
    let z := (c.z.toNat : Int) + dz
    if g.inBounds x z then some ⟨x.toNat.toUInt32, z.toNat.toUInt32⟩ else none

/-! ### Which cells are tiles -/

/-- A cell is a tile exactly if both coordinates are below the size. -/
theorem contains_iff {g : Grid} {c : Cell} :
    g.contains c = true ↔ c.x.toNat < g.width.toNat ∧ c.z.toNat < g.height.toNat := by
  simp [contains, inBounds]

/-- The list of all cells holds exactly the tiles. -/
theorem mem_cells_iff {g : Grid} {c : Cell} : c ∈ g.cells ↔ g.contains c = true := by
  simp only [cells, List.mem_flatMap, List.mem_map, List.mem_range, contains_iff]
  constructor
  · rintro ⟨z, hz, x, hx, rfl⟩
    have hw := g.width.toNat_lt
    have hh := g.height.toNat_lt
    exact ⟨by simpa [Nat.mod_eq_of_lt (Nat.lt_trans hx hw)] using hx,
      by simpa [Nat.mod_eq_of_lt (Nat.lt_trans hz hh)] using hz⟩
  · rintro ⟨hx, hz⟩
    exact ⟨c.z.toNat, hz, c.x.toNat, hx, by simp⟩

/-- The neighbours of a tile are tiles. -/
theorem contains_of_mem_neighbours {g : Grid} {c n : Cell} (h : n ∈ g.neighbours c) :
    g.contains n = true := by
  simp only [neighbours, List.mem_filterMap] at h
  obtain ⟨⟨dx, dz⟩, -, h⟩ := h
  split at h
  case isTrue hin =>
    simp only [inBounds, Bool.and_eq_true, decide_eq_true_eq] at hin
    have hw := g.width.toNat_lt
    have hh := g.height.toNat_lt
    cases h
    rw [contains_iff]
    simp
    omega
  case isFalse => cases h

end Grid

end Battlemap
