import Battlemap.Number.Decimal

/-!
# `Battlemap.Command.FileSet`: files and the paths to them

The files that a run sees, by the places where they are. A path leads to
a place step by step, from the working directory or, behind a leading
slash, from the root; every step but the last has to reach a directory,
and a path that is too long leads nowhere. A directory is there if it was
made or if some file lies in it. The null device is a file that reads as
empty and takes whatever is written to it.
-/

set_option autoImplicit false

namespace Battlemap

/-- A place by the steps that lead to it from the working directory. The
step `/` in front leads from the root instead; the steps `..` in front
lead to the directories around the working directory. -/
abbrev FilePlace := List String

namespace FilePlace

/-- The root. -/
def root : FilePlace := ["/"]

/-- The null device. -/
def nullDevice : FilePlace := ["/", "dev", "null"]

/-- The directories that are there without any file of the set: the
working directory, those around it, and three below the root. -/
def isStanding (place : FilePlace) : Bool :=
  place.all (· == "..") || place == root || place == ["/", "dev"] || place == ["/", "tmp"]

/-- The directory around a directory; the root lies in itself. -/
def parent (place : FilePlace) : FilePlace :=
  if place == root then root
  else if place.all (· == "..") then ".." :: place
  else place.dropLast

/-- The place that one step leads to. -/
def step (place : FilePlace) (part : String) : FilePlace :=
  if part == "" || part == "." then place
  else if part == ".." then place.parent
  else place ++ [part]

/-- The longest step, in bytes. -/
def maxStepSize : Nat := 255

/-- What the size of a path stays below, in bytes. -/
def pathSizeLimit : Nat := 4096

/-- Where a path starts, and its parts; `none` if it is empty or too
long. -/
def parts? (path : String) : Option (FilePlace × List String) :=
  let parts := path.splitOn "/"
  if path.isEmpty || pathSizeLimit ≤ path.utf8ByteSize
      || parts.any fun part => maxStepSize < part.utf8ByteSize then none
  else some (if path.startsWith "/" then root else [], parts)

/-- Walk through directories. -/
def walk (isDirectory : FilePlace → Bool) : FilePlace → List String → Option FilePlace
  | place, [] => some place
  | place, part :: parts =>
    let next := place.step part
    if isDirectory next then walk isDirectory next parts else none

/-- The place of the file that a path names; `none` if it cannot name a
file. -/
def ofPath? (isDirectory : FilePlace → Bool) (path : String) : Option FilePlace := do
  let (start, parts) ← parts? path
  let directory ← walk isDirectory start parts.dropLast
  let name ← parts.getLast?
  if name == "" || name == "." || name == ".." then none else some (directory ++ [name])

end FilePlace

/-- Some files, and the directories that were made besides. -/
structure FileSet where
  files : List (FilePlace × List UInt8)
  directories : List FilePlace

namespace FileSet

/-- No files. -/
def empty : FileSet := ⟨[], []⟩

/-- Put a file at a place, instead of the one that is there. -/
def put (s : FileSet) (place : FilePlace) (content : List UInt8) : FileSet :=
  { s with files := (place, content) :: s.files.filter fun (other, _) => other != place }

/-- Files given by their paths, with the directories they need; of two
with one path the later one counts. -/
def ofList (files : List (String × List UInt8)) : FileSet :=
  files.foldl (fun s (path, content) =>
    match FilePlace.ofPath? (fun _ => true) path with
    | some place => s.put place content
    | none => s) empty

/-- Whether a place is a directory. -/
def isDirectory (s : FileSet) (place : FilePlace) : Bool :=
  place.isStanding || s.directories.contains place
    || s.files.any fun (file, _) =>
      place.length < file.length && file.take place.length == place

/-- The place of the file that a path names. -/
def place? (s : FileSet) (path : String) : Option FilePlace :=
  FilePlace.ofPath? s.isDirectory path

/-- The content of a file. -/
def read (s : FileSet) (path : String) : Option (List UInt8) :=
  (s.place? path).bind fun place =>
    if place == FilePlace.nullDevice then some [] else s.files.lookup place

/-- The files after one of them is written; `none` if its directory is
missing, the path names a directory, or the directory is not open to new
files. -/
def write? (s : FileSet) (path : String) (content : List UInt8) : Option FileSet := do
  let place ← s.place? path
  if place == FilePlace.nullDevice then some s
  else if s.isDirectory place || place.dropLast == FilePlace.root
      || place.dropLast == FilePlace.nullDevice.dropLast then none
  else some (s.put place content)

/-- Walk through directories and make those that are missing; `none` if
a file is in the way. -/
def makeSteps? : FileSet → FilePlace → List String → Option FileSet
  | s, _, [] => some s
  | s, place, part :: parts =>
    let next := place.step part
    if s.isDirectory next then makeSteps? s next parts
    else if next == FilePlace.nullDevice || (s.files.lookup next).isSome then none
    else makeSteps? { s with directories := next :: s.directories } next parts

/-- The files after a directory is made, with the directories around it;
`none` if that fails. A directory that is there stays. -/
def makeDirectory? (s : FileSet) (path : String) : Option FileSet := do
  let (start, parts) ← FilePlace.parts? path
  s.makeSteps? start parts

end FileSet

end Battlemap
