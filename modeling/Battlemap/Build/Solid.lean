import Battlemap.Geometry.Mesh
import Battlemap.Level.Header

/-!
# `Battlemap.Build.Solid`: what a map is built from

A solid is a box or a closed triangle mesh in world coordinates, with
the gameplay data that its levels inherit. Solids are known by their
place in the list of solids.
-/

set_option autoImplicit false

namespace Battlemap

/-- A solid of the scene. -/
structure Solid where
  /-- The surface of a mesh solid; a box solid is its bounds. -/
  mesh : Option Mesh
  bounds : Box
  data : LevelData
deriving DecidableEq, Inhabited

namespace Solid

/-- A mesh placed in the world. -/
def ofMesh (mesh : Mesh) (placement : AffineMap) (data : LevelData) : Solid :=
  let placed := mesh.transformed placement
  ⟨some placed, placed.bounds, data⟩

/-- A box placed in the world: the box along the axes around its placed
corners. -/
def ofBox (box : Box) (placement : AffineMap) (data : LevelData) : Solid :=
  ⟨none, .ofPoints (box.corners.map placement.apply), data⟩

/-- Whether the solid's levels can be damaged. -/
def isDestructible (s : Solid) : Bool := s.data.header.hasFlag destructibleFlag

end Solid

end Battlemap
