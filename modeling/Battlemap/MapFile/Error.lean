import Battlemap.Board.Consistency
import Battlemap.Number.Decimal
import Battlemap.Text.Quoted
import Battlemap.Text.Utf8

/-!
# `Battlemap.MapFile.Error`: why a file is refused

A file is read whole or not at all, and the first thing that does not
fit decides the error.
-/

set_option autoImplicit false

namespace Battlemap

/-- Why a map file cannot be read or written. -/
inductive MapFileError where
  /-- The file ends early. -/
  | truncated
  /-- A level header has a type code that no kind has. -/
  | unknownKind (code : UInt8)
  /-- The file does not start with the magic bytes. -/
  | badMagic (found : List UInt8)
  | unsupportedVersion (major minor : UInt16)
  /-- A chunk does not start with its label. -/
  | chunkMismatch (expected found : List UInt8)
  /-- A chunk's length is not the length of its records. -/
  | chunkSize (chunk : List UInt8) (expected : Nat) (found : UInt32)
  /-- The file was written with another record layout. -/
  | recordSize (record : String) (expected found : UInt32)
  | payloadTooLarge (size limit : UInt32)
  /-- A count or length does not fit its field. -/
  | tooLarge
  /-- The arrays of the file do not make up a map. -/
  | inconsistent (defect : Defect)
deriving DecidableEq

/-- The message of the error. -/
def MapFileError.message : MapFileError → String
  | truncated => "I/O error: failed to fill whole buffer"
  | unknownKind code => s!"I/O error: unknown structural type {code}"
  | badMagic found =>
    "not a tactical map file (magic ["
      ++ ", ".intercalate (found.map fun byte => toString byte.toNat) ++ "])"
  | unsupportedVersion major minor => s!"unsupported format version {major}.{minor} (expected 1.x)"
  | chunkMismatch expected found =>
    "chunk mismatch: expected " ++ quoted (Utf8.decodeLenient expected) ++ ", got "
      ++ quoted (Utf8.decodeLenient found)
  | chunkSize chunk expected found =>
    "chunk " ++ String.ofList (Utf8.decodeLenient chunk)
      ++ s!" is {found} bytes, expected {expected}"
  | recordSize record expected found => s!"{record} record size {found} does not match {expected}"
  | payloadTooLarge size limit => s!"metadata size {size} exceeds the {limit} byte limit"
  | tooLarge => "map too large to serialize"
  | inconsistent defect => defect.message

end Battlemap
