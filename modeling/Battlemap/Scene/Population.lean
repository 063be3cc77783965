import Battlemap.Build.Config
import Battlemap.Scene.Description

/-!
# `Battlemap.Scene.Population`: from a scene to solids

Populating a builder registers the boxes of a scene and then its meshes,
one after the other, up to the first that is malformed: one whose layer
bit is out of range, whose payload is not hexadecimal, or whose
triangles name a missing vertex. The solids in front of it stay
registered.
-/

set_option autoImplicit false

namespace Battlemap

/-- What is wrong with the gameplay data of a solid. -/
inductive DataError where
  | layerBit (bit : UInt8)
  | payload (text : String)
deriving DecidableEq

/-- The message of the error. -/
def DataError.message : DataError → String
  | layerBit bit => s!"layer bit {bit} out of range 0..={highestLayerBit}"
  | payload text => "invalid hex payload '" ++ text ++ "'"

/-- What is wrong with a scene. -/
inductive SceneError where
  | box (index : Nat) (cause : DataError)
  | mesh (index : Nat) (cause : DataError)
  | triangle (mesh : Nat) (triangle : TriangleIndices)
deriving DecidableEq

namespace SceneError

/-- What the error is about, or all of it. -/
def headline : SceneError → String
  | box index _ => s!"box {index}"
  | mesh index _ => s!"mesh {index}"
  | triangle index t =>
    s!"mesh {index}: triangle [{t.a}, {t.b}, {t.c}] references a missing vertex"

/-- The cause behind the headline, if there is one. -/
def cause? : SceneError → Option DataError
  | box _ cause => some cause
  | mesh _ cause => some cause
  | triangle _ _ => none

/-- The headline and the cause. -/
def message (e : SceneError) : String :=
  match e.cause? with
  | some cause => e.headline ++ ": " ++ cause.message
  | none => e.headline

end SceneError

/-- The gameplay data that a description stands for. -/
def DataDescription.toLevelData (d : DataDescription) : Except DataError LevelData :=
  if highestLayerBit < d.layerBit then .error (.layerBit d.layerBit)
  else
    match (d.payload.map Hex.decode?).getD (some []) with
    | none => .error (.payload (d.payload.getD ""))
    | some payload =>
      let header : LevelHeader :=
        { LevelHeader.plain with
          flags := d.flags
          instanceId := d.instanceId
          nameHash := (d.name.map nameHash).getD 0
          layerBit := d.layerBit }
      .ok ⟨if d.destructible then header.setFlag destructibleFlag true else header, payload⟩

/-- The solid of a box. -/
def BoxDescription.toSolid (d : BoxDescription) (index : Nat) : Except SceneError Solid :=
  match d.data.toLevelData with
  | .error cause => .error (.box index cause)
  | .ok data => .ok (.ofBox (.ofCorners d.min d.max) d.placement.toAffineMap data)

/-- The solid of a mesh. Its vertices are counted by a natural number, which a count in 32 bits
agrees with below `2 ^ 32` vertices. -/
def MeshDescription.toSolid (d : MeshDescription) (index : Nat) : Except SceneError Solid :=
  match d.data.toLevelData with
  | .error cause => .error (.mesh index cause)
  | .ok data =>
    let count := d.vertices.length
    match d.triangles.find? fun t => !t.isWithin count with
    | some bad => .error (.triangle index bad)
    | none =>
      let mesh := Mesh.ofTriangles d.vertices.toArray d.triangles.toArray
      .ok (.ofMesh mesh d.placement.toAffineMap data)

/-- Register solids up to the first error. -/
def Builder.addAll (b : Builder) : List (Except SceneError Solid) → Builder × Option SceneError
  | [] => (b, none)
  | .error e :: _ => (b, some e)
  | .ok solid :: rest => (b.add solid).addAll rest

namespace Scene

/-- The solids of the scene in order, or what is wrong with them. -/
def solids (s : Scene) : List (Except SceneError Solid) :=
  (s.boxes.mapIdx fun index d => d.toSolid index)
    ++ s.meshes.mapIdx fun index d => d.toSolid index

/-- Register the solids of the scene, up to the first error. -/
def populate (s : Scene) (b : Builder) : Builder × Option SceneError := b.addAll s.solids

end Scene

end Battlemap
