import Battlemap.Geometry.Plane
import Battlemap.Geometry.Placement

/-!
# `Battlemap.Geometry.Mesh`: triangle meshes

A mesh is a list of vertices and triangles over them. Triangles that
name a missing vertex are dropped when the mesh is made, so every
triangle of a mesh has three corners.
-/

set_option autoImplicit false

namespace Battlemap

/-- A triangle, by the indices of its corners. -/
structure TriangleIndices where
  a : UInt32
  b : UInt32
  c : UInt32
deriving DecidableEq, Inhabited, Repr

/-- Whether all three corners are among the first `count` vertices. -/
def TriangleIndices.isWithin (t : TriangleIndices) (count : Nat) : Bool :=
  decide (t.a.toNat < count) && decide (t.b.toNat < count) && decide (t.c.toNat < count)

/-- A triangle of a mesh, with what the builder asks of it. -/
structure Polygon where
  indices : TriangleIndices
  a : Vec3
  b : Vec3
  c : Vec3
  plane : Plane
deriving DecidableEq, Inhabited, Repr

/-- The least box around the polygon. -/
def Polygon.bounds (p : Polygon) : Box := .ofPoints [p.a, p.b, p.c]

/-- A triangle mesh. -/
structure Mesh where
  vertices : Array Vec3
  polygons : Array Polygon
deriving DecidableEq, Inhabited, Repr

namespace Mesh

/-- The polygon with the given corners, if the vertices exist. -/
def polygon? (vertices : Array Vec3) (t : TriangleIndices) : Option Polygon := do
  let a ← vertices[t.a.toNat]?
  let b ← vertices[t.b.toNat]?
  let c ← vertices[t.c.toNat]?
  return ⟨t, a, b, c, .throughPoints a b c⟩

/-- The mesh over some vertices, without the triangles that name a
missing one. -/
def ofTriangles (vertices : Array Vec3) (triangles : Array TriangleIndices) : Mesh :=
  ⟨vertices, triangles.filterMap (polygon? vertices)⟩

/-- The mesh with every vertex moved by an affine map. -/
def transformed (m : Mesh) (map : AffineMap) : Mesh :=
  ofTriangles (m.vertices.map map.apply) (m.polygons.map Polygon.indices)

/-- The least box around all vertices, used or not. -/
def bounds (m : Mesh) : Box := m.vertices.foldl Box.mergePoint .empty

end Mesh

end Battlemap
