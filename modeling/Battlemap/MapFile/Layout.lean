import Battlemap.MapFile.Bytes

/-!
# `Battlemap.MapFile.Layout`: the records of a map file

A file is the magic bytes, a version and four chunks: the preamble, the
levels, the tiles and the gameplay data. A chunk is a label, the length
of its records and the records. For each kind of record this module
has the bytes and the reader side by side; the preamble repeats the
record lengths, so a file of another layout is refused rather than
misread.
-/

set_option autoImplicit false

namespace Battlemap

namespace MapFile

/-- The bytes `TMAP`. -/
def magic : List UInt8 := [0x54, 0x4d, 0x41, 0x50]

/-- The major version that is read and written. -/
def majorVersion : UInt16 := 1

/-- The minor version that is written. -/
def minorVersion : UInt16 := 0

/-- The chunks of a file, in order. -/
inductive Chunk where
  | preamble
  | levels
  | tiles
  | data
deriving DecidableEq, Repr

/-- The bytes that a chunk starts with: `PRE `, `LEVL`, `TILE`, `LDAT`. -/
def Chunk.label : Chunk → List UInt8
  | preamble => [0x50, 0x52, 0x45, 0x20]
  | levels => [0x4c, 0x45, 0x56, 0x4c]
  | tiles => [0x54, 0x49, 0x4c, 0x45]
  | data => [0x4c, 0x44, 0x41, 0x54]

/-- The length of the preamble. -/
def preambleSize : Nat := 60

/-- The length of a level header. -/
def headerSize : UInt32 := 20

/-- The start of a chunk with the given length. -/
def bytesOfChunk (chunk : Chunk) (size : Nat) : Except MapFileError (List UInt8) :=
  if size < UInt32.size then .ok (chunk.label ++ bytesOfUInt32 size.toUInt32)
  else .error .tooLarge

/-- Read the start of a chunk, which must have the given length. -/
def readChunk (chunk : Chunk) (size : Nat) : Reader Unit := do
  let label ← Reader.take 4
  if label = chunk.label then
    let found ← Reader.uint32
    if found.toNat = size then return ()
    else Reader.fail (.chunkSize chunk.label size found)
  else Reader.fail (.chunkMismatch chunk.label label)

/-! ### Records -/

/-- The bytes of a tile. -/
def bytesOfTile (t : Tile) : List UInt8 :=
  bytesOfUInt32 t.levelCount ++ bytesOfUInt32 t.levelStart

/-- Read a tile. -/
def readTile : Reader Tile := do
  let levelCount ← Reader.uint32
  let levelStart ← Reader.uint32
  return ⟨levelCount, levelStart⟩

/-- The bytes of a level. -/
def bytesOfLevel (l : Level) : List UInt8 :=
  bytesOfPlane l.floor ++ bytesOfPlane l.ceiling ++ bytesOfSingle l.baseHeight
    ++ bytesOfSingle l.roofDelta ++ bytesOfUInt32 l.dataIndex ++ bytesOfUInt32 l.reserved

/-- Read a level. -/
def readLevel : Reader Level := do
  let floor ← Reader.plane
  let ceiling ← Reader.plane
  let baseHeight ← Reader.single
  let roofDelta ← Reader.single
  let dataIndex ← Reader.uint32
  let reserved ← Reader.uint32
  return ⟨floor, ceiling, baseHeight, roofDelta, dataIndex, reserved⟩

/-- The bytes of a level header. -/
def bytesOfHeader (h : LevelHeader) : List UInt8 :=
  bytesOfUInt32 h.flags ++ bytesOfUInt32 h.instanceId ++ bytesOfUInt32 h.nameHash
    ++ [h.layerBit, h.kind.code] ++ bytesOfUInt16 h.position ++ bytesOfInt32 h.integrity

/-- Read a level header. An unknown kind is reported before anything
behind it is read. -/
def readHeader : Reader LevelHeader := do
  let flags ← Reader.uint32
  let instanceId ← Reader.uint32
  let nameHash ← Reader.uint32
  let layerBit ← Reader.uint8
  let code ← Reader.uint8
  match StructuralKind.ofCode? code with
  | none => Reader.fail (.unknownKind code)
  | some kind =>
    let position ← Reader.uint16
    let integrity ← Reader.int32
    return ⟨flags, instanceId, nameHash, layerBit, kind, position, integrity⟩

/-- The bytes of gameplay data whose payload is given some length. -/
def bytesOfData (payloadSize : Nat) (d : LevelData) : List UInt8 :=
  bytesOfHeader d.header ++ resizedPayload d.payload payloadSize

/-- Read gameplay data with a payload of some length. -/
def readData (payloadSize : Nat) : Reader LevelData := do
  let header ← readHeader
  let payload ← Reader.take payloadSize
  return ⟨header, payload⟩

end MapFile

end Battlemap
