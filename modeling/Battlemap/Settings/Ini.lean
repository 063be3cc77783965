import Battlemap.Text.Blank
import Battlemap.Text.Lowercase

/-!
# `Battlemap.Settings.Ini`: settings files

A settings file has one key per line, grouped into sections. A
semicolon or a number sign starts a comment. Sections and keys are kept
in lower case; keys in front of the first section belong to the section
`default`. A section may be opened again, and the last value of a key
counts. A key without a value, and without a delimiter, is kept as such.
-/

set_option autoImplicit false

namespace Battlemap

/-- A line of a settings file. -/
structure IniEntry where
  sectionName : String
  key : String
  value : Option String
deriving DecidableEq, Repr

/-- The entries of a settings file, the last one first. -/
structure Ini where
  entries : List IniEntry
deriving DecidableEq, Inhabited, Repr

namespace Ini

/-- A file without entries. -/
def empty : Ini := ⟨[]⟩

/-- The section of keys in front of the first section. -/
def defaultSection : String := "default"

/-- Whether a character starts a comment. -/
def startsComment (c : Char) : Bool := c = ';' || c = '#'

/-- The part of a line that is no comment, trimmed. -/
def content (line : List Char) : List Char :=
  trimmedChars (line.takeWhile fun c => !startsComment c)

/-- The text up to the last closing bracket; `none` without one. -/
def upToBracket (text : List Char) : Option (List Char) :=
  match text.reverse.dropWhile (· != ']') with
  | [] => none
  | _ :: front => some front.reverse

/-- Lower-case text of some characters, trimmed. -/
def nameOf (text : List Char) : String := lowercase (String.ofList (trimmedChars text))

/-- A reading position: the entries so far and the section of the next
one. -/
structure Position where
  ini : Ini
  sectionName : String

/-- Read a key with or without a value. -/
def readEntry (p : Position) (line : List Char) : Option Position :=
  let (key, rest) := line.span fun c => c != '=' && c != ':'
  let name := nameOf key
  match rest with
  | [] => some { p with ini := ⟨⟨p.sectionName, name, none⟩ :: p.ini.entries⟩ }
  | _ :: value =>
    if name.isEmpty then none
    else
      let value := String.ofList (trimmedChars value)
      some { p with ini := ⟨⟨p.sectionName, name, some value⟩ :: p.ini.entries⟩ }

/-- Read a line. -/
def readLine (p : Position) (line : List Char) : Option Position :=
  match content line with
  | [] => some p
  | '[' :: rest => (upToBracket rest).map fun name => { p with sectionName := nameOf name }
  | text => readEntry p text

/-- The lines of a text, without their ends. -/
def linesOf (text : String) : List (List Char) := text.toList.splitOn '\n'

/-- The entries of a text, unless a line is malformed. -/
def read? (text : String) : Option Ini :=
  ((linesOf text).foldlM readLine ⟨empty, defaultSection⟩).map Position.ini

/-- The value of a key in a section; `none` also for a key without one. -/
def get? (ini : Ini) (sectionName key : String) : Option String :=
  let sectionName := lowercase sectionName
  let key := lowercase key
  match ini.entries.find? fun entry => entry.sectionName == sectionName && entry.key == key with
  | some entry => entry.value
  | none => none

end Ini

end Battlemap
