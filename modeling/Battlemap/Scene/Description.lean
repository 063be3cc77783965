import Battlemap.Build.Solid
import Battlemap.Text.Hex
import Battlemap.Text.Json

/-!
# `Battlemap.Scene.Description`: scenes as JSON

A scene lists boxes and meshes, each with a placement and the gameplay
data of its levels. This module reads the description; what it says is
checked when the scene is populated.
-/

set_option autoImplicit false

namespace Battlemap

namespace Json

/-- A vector. -/
def toVec3? (j : Json) : Option Vec3 :=
  (j.toTriple? toSingle?).map fun (x, y, z) => ⟨x, y, z⟩

/-- The corners of a triangle. -/
def toTriangle? (j : Json) : Option TriangleIndices :=
  (j.toTriple? toUInt32?).map fun (a, b, c) => ⟨a, b, c⟩

/-- A placement. -/
def toPlacement? (j : Json) : Option Placement := do
  match ← j.record? ["translation", "rotationYDeg", "scale"] with
  | [translation, rotation, scale] =>
    return ⟨← fieldOr .zero toVec3? translation, ← fieldOr .zero toSingle? rotation,
      ← fieldOr .one toSingle? scale⟩
  | _ => none

end Json

/-- The gameplay data of a solid as a scene describes it. -/
structure DataDescription where
  flags : UInt32
  instanceId : UInt32
  /-- Stored by its hash. -/
  name : Option String
  layerBit : UInt8
  destructible : Bool
  /-- The payload in hexadecimal digits. -/
  payload : Option String
deriving DecidableEq

/-- The description that says nothing. -/
def DataDescription.plain : DataDescription := ⟨0, 0, none, 0, false, none⟩

/-- A box of a scene. -/
structure BoxDescription where
  min : Vec3
  max : Vec3
  placement : Placement
  data : DataDescription
deriving DecidableEq

/-- A mesh of a scene. -/
structure MeshDescription where
  vertices : List Vec3
  triangles : List TriangleIndices
  placement : Placement
  data : DataDescription
deriving DecidableEq

/-- A scene. -/
structure Scene where
  boxes : List BoxDescription
  meshes : List MeshDescription
deriving DecidableEq

namespace Json

/-- The gameplay data of a solid. -/
def toDataDescription? (j : Json) : Option DataDescription := do
  match ← j.record? ["flags", "instanceId", "name", "layerBit", "destructible", "payload"] with
  | [flags, instanceId, name, layerBit, destructible, payload] =>
    return ⟨← fieldOr 0 toUInt32? flags, ← fieldOr 0 toUInt32? instanceId,
      ← fieldOr none toOptionalText? name, ← fieldOr 0 toUInt8? layerBit,
      ← fieldOr false toBool? destructible, ← fieldOr none toOptionalText? payload⟩
  | _ => none

/-- A box of a scene. -/
def toBoxDescription? (j : Json) : Option BoxDescription := do
  match ← j.record? ["min", "max", "transform", "metadata"] with
  | [some min, some max, placement, data] =>
    return ⟨← toVec3? min, ← toVec3? max, ← fieldOr default toPlacement? placement,
      ← fieldOr .plain toDataDescription? data⟩
  | _ => none

/-- A mesh of a scene. -/
def toMeshDescription? (j : Json) : Option MeshDescription := do
  match ← j.record? ["vertices", "triangles", "transform", "metadata"] with
  | [some vertices, some triangles, placement, data] =>
    return ⟨← vertices.toList? toVec3?, ← triangles.toList? toTriangle?,
      ← fieldOr default toPlacement? placement, ← fieldOr .plain toDataDescription? data⟩
  | _ => none

/-- A scene. -/
def toScene? (j : Json) : Option Scene := do
  match ← j.record? ["boxes", "meshes"] with
  | [boxes, meshes] =>
    return ⟨← fieldOr [] (toList? toBoxDescription?) boxes,
      ← fieldOr [] (toList? toMeshDescription?) meshes⟩
  | _ => none

end Json

namespace Scene

/-- The scene that a text describes. -/
def read? (text : String) : Option Scene := (Json.read? text).bind Json.toScene?

/-- The number of boxes and meshes. -/
def solidCount (s : Scene) : Nat := s.boxes.length + s.meshes.length

end Scene

end Battlemap
