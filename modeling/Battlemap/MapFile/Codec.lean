import Battlemap.MapFile.Layout

/-!
# `Battlemap.MapFile.Codec`: maps as files

`save` writes a map, `load` reads one. A saved payload always has the
map's payload length, whatever length it has in memory. Loading checks
every redundant field (record lengths, chunk lengths, counts) and then
the map as a whole; bytes behind the last chunk are ignored.
-/

set_option autoImplicit false

namespace Battlemap

namespace MapFile

/-- A count as a field of the preamble. -/
def bytesOfCount (count : Nat) : Except MapFileError (List UInt8) :=
  if count < UInt32.size then .ok (bytesOfUInt32 count.toUInt32) else .error .tooLarge

/-- The bytes in front of the first chunk. -/
def opening : List UInt8 :=
  magic ++ bytesOfUInt16 majorVersion ++ bytesOfUInt16 minorVersion

/-- The bytes of the grid and the height range, as they end the
preamble. -/
def bytesOfExtent (g : Grid) : List UInt8 :=
  bytesOfVec3 g.origin ++ bytesOfSingle g.tileSize ++ bytesOfSingle g.minHeight
    ++ bytesOfSingle g.maxHeight

/-- The records of the preamble. -/
def bytesOfPreamble (b : Board) : Except MapFileError (List UInt8) := do
  let tiles ← bytesOfCount b.tiles.size
  let levels ← bytesOfCount b.levels.size
  let data ← bytesOfCount b.data.size
  return bytesOfUInt32 Tile.recordSize ++ bytesOfUInt32 Level.recordSize
    ++ bytesOfUInt32 headerSize ++ bytesOfUInt32 b.payloadSize ++ bytesOfUInt32 b.grid.width
    ++ bytesOfUInt32 b.grid.height ++ tiles ++ levels ++ data ++ bytesOfExtent b.grid

/-- The length of one record of gameplay data. -/
def dataRecordSize (payloadSize : UInt32) : Nat := headerSize.toNat + payloadSize.toNat

/-- The file of a map. -/
def save (b : Board) : Except MapFileError (List UInt8) := do
  let preambleChunk ← bytesOfChunk .preamble preambleSize
  let preamble ← bytesOfPreamble b
  let levelChunk ← bytesOfChunk .levels (b.levels.size * Level.recordSize.toNat)
  let tileChunk ← bytesOfChunk .tiles (b.tiles.size * Tile.recordSize.toNat)
  let dataChunk ← bytesOfChunk .data (b.data.size * dataRecordSize b.payloadSize)
  return opening ++ preambleChunk ++ preamble
    ++ levelChunk ++ b.levels.toList.flatMap bytesOfLevel
    ++ tileChunk ++ b.tiles.toList.flatMap bytesOfTile
    ++ dataChunk ++ b.data.toList.flatMap (bytesOfData b.payloadSize.toNat)

/-- Read the magic bytes and the version. -/
def readOpening : Reader Unit := do
  let found ← Reader.take 4
  if found = magic then
    let major ← Reader.uint16
    let minor ← Reader.uint16
    if major = majorVersion then return ()
    else Reader.fail (.unsupportedVersion major minor)
  else Reader.fail (.badMagic found)

/-- Read a record length, which must be the one of this layout. -/
def readRecordSize (record : String) (expected : UInt32) : Reader Unit := do
  let found ← Reader.uint32
  if found = expected then return () else Reader.fail (.recordSize record expected found)

/-- What the preamble says of the map. -/
structure Preamble where
  grid : Grid
  payloadSize : UInt32
  tileCount : UInt32
  levelCount : UInt32
  dataCount : UInt32
deriving DecidableEq

/-- Read the payload length, which is limited. -/
def readPayloadSize : Reader UInt32 := do
  let size ← Reader.uint32
  if payloadLimit < size then Reader.fail (.payloadTooLarge size payloadLimit) else return size

/-- Read the records of the preamble. -/
def readPreamble : Reader Preamble := do
  readRecordSize "tile" Tile.recordSize
  readRecordSize "level" Level.recordSize
  readRecordSize "level data header" headerSize
  let payloadSize ← readPayloadSize
  let width ← Reader.uint32
  let height ← Reader.uint32
  let tileCount ← Reader.uint32
  let levelCount ← Reader.uint32
  let dataCount ← Reader.uint32
  let origin ← Reader.vec3
  let tileSize ← Reader.single
  let minHeight ← Reader.single
  let maxHeight ← Reader.single
  let grid : Grid := ⟨width, height, tileSize, origin, minHeight, maxHeight⟩
  if tileCount.toNat = grid.tileCount then
    return ⟨grid, payloadSize, tileCount, levelCount, dataCount⟩
  else Reader.fail (.inconsistent (.tileCount grid.tileCount tileCount.toNat))

/-- Read a map. -/
def readBoard : Reader Board := do
  readOpening
  readChunk .preamble preambleSize
  let preamble ← readPreamble
  readChunk .levels (preamble.levelCount.toNat * Level.recordSize.toNat)
  let levels ← Reader.many readLevel preamble.levelCount.toNat
  readChunk .tiles (preamble.tileCount.toNat * Tile.recordSize.toNat)
  let tiles ← Reader.many readTile preamble.tileCount.toNat
  readChunk .data (preamble.dataCount.toNat * dataRecordSize preamble.payloadSize)
  let data ← Reader.many (readData preamble.payloadSize.toNat) preamble.dataCount.toNat
  match Board.ofParts preamble.grid preamble.payloadSize tiles levels data with
  | .ok board => return board
  | .error defect => Reader.fail (.inconsistent defect)

/-- The map in a file. -/
def load (bytes : List UInt8) : Except MapFileError Board :=
  (readBoard.run bytes).map Prod.fst

end MapFile

end Battlemap
