/-!
# `Battlemap.Level.Header`: the gameplay data of a level

Solids and levels carry the same record: a header of fixed size and an
opaque payload whose meaning belongs to the game. A level copies the
record of the solid that carries it, and its header is then completed
with the level's position in its tile, its flags and its structure.
Damage changes nothing but the integrity and the destroyed flag.
-/

set_option autoImplicit false

namespace Battlemap

/-- What a level is to the structure around it, from the least to the
most binding. -/
inductive StructuralKind where
  /-- Not part of a structure. -/
  | notStructural
  /-- Flat, and damaged by what hits it. -/
  | floor
  /-- Upright, and damaged by what hits it. -/
  | wall
  /-- Immovable; it never loses integrity. -/
  | world
deriving DecidableEq, Inhabited, Repr

namespace StructuralKind

/-- The code of the kind in files, which is also its rank when kinds are
combined. -/
def code : StructuralKind → UInt8
  | notStructural => 0
  | floor => 1
  | wall => 2
  | world => 3

/-- The kind with a code. -/
def ofCode? (code : UInt8) : Option StructuralKind :=
  if code = 0 then some notStructural
  else if code = 1 then some floor
  else if code = 2 then some wall
  else if code = 3 then some world
  else none

/-- The name of the kind in reports. -/
def name : StructuralKind → String
  | notStructural => "NotStructural"
  | floor => "Floor"
  | wall => "Wall"
  | world => "World"

/-- The more binding of two kinds. -/
def combine (a b : StructuralKind) : StructuralKind :=
  if a.code < b.code then b else a

/-- Whether damage takes integrity from a level of this kind. -/
def isDamageable : StructuralKind → Bool
  | floor | wall => true
  | notStructural | world => false

end StructuralKind

/-! ### Flags -/

/-- The level collapsed; lookups skip it. -/
def destroyedFlag : UInt32 := 1

/-- The level has a valid ceiling plane. -/
def roofValidFlag : UInt32 := 2

/-- The solid, or the level, can be damaged. -/
def destructibleFlag : UInt32 := 4

/-- The level takes part in structural collapse. -/
def structuralFlag : UInt32 := 8

/-- The largest payload a level may carry, in bytes. -/
def payloadLimit : UInt32 := 65536

/-- The highest layer bit. -/
def highestLayerBit : UInt8 := 31

/-- The fixed part of the gameplay data. -/
structure LevelHeader where
  flags : UInt32
  instanceId : UInt32
  nameHash : UInt32
  layerBit : UInt8
  kind : StructuralKind
  /-- The position of the level in its tile, counted from the bottom. -/
  position : UInt16
  integrity : Int32
deriving DecidableEq

namespace LevelHeader

/-- The header of a solid that nothing was said about. -/
def plain : LevelHeader := ⟨0, 0, 0, 0, .notStructural, 0, 0⟩

instance : Inhabited LevelHeader := ⟨plain⟩

/-- Whether some bit of `flag` is set. -/
def hasFlag (h : LevelHeader) (flag : UInt32) : Bool := h.flags &&& flag != 0

/-- The header with the bits of `flag` set or cleared. -/
def setFlag (h : LevelHeader) (flag : UInt32) (enabled : Bool) : LevelHeader :=
  { h with flags := if enabled then h.flags ||| flag else h.flags &&& ~~~flag }

/-- Whether the level collapsed. -/
def isDestroyed (h : LevelHeader) : Bool := h.hasFlag destroyedFlag

/-- The bit of a lookup mask that selects the level. -/
def layerMask (h : LevelHeader) : UInt32 :=
  1 <<< (if highestLayerBit < h.layerBit then highestLayerBit else h.layerBit).toUInt32

end LevelHeader

/-- A header and an opaque payload. -/
structure LevelData where
  header : LevelHeader
  payload : List UInt8
deriving DecidableEq, Inhabited

/-- A payload cut or filled with zeros to a length. -/
def resizedPayload (payload : List UInt8) (size : Nat) : List UInt8 :=
  payload.take size ++ List.replicate (size - payload.length) 0

/-- The same data with a payload of the given length. -/
def LevelData.resized (d : LevelData) (size : Nat) : LevelData :=
  { d with payload := resizedPayload d.payload size }

/-! ### Names -/

/-- The hash by which names of solids are stored: each byte of the text
is mixed in by exclusive or and one multiplication. -/
def nameHash (name : String) : UInt32 :=
  name.toUTF8.foldl (fun hash byte => (hash ^^^ byte.toUInt32) * 0x01000193) 0x811c9dc5

end Battlemap
