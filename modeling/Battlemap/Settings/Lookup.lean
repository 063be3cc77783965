import Battlemap.Number.Decimal
import Battlemap.Settings.Environment
import Battlemap.Settings.Ini

/-!
# `Battlemap.Settings.Lookup`: where a setting comes from

A setting is looked up in the environment first, then in the settings
file, then it has its default. The variable of a key is the key behind
a common beginning, with underscores for points. Values of the file may
stand in quotation marks; those of the environment are taken as they
are. A value that does not read as what is asked for counts as the
default.
-/

set_option autoImplicit false

namespace Battlemap

/-- The settings a program runs with. -/
structure Settings where
  ini : Ini
  environment : Environment
  /-- What the names of variables start with; if it is empty the
  environment is not asked. -/
  variableStart : String

namespace Settings

/-- The section that is asked first. -/
def mainSection : String := "tacmap"

/-- The text without the quotation marks around it. -/
def unquoted (text : String) : String :=
  match text.toList with
  | '"' :: rest =>
    match rest.reverse with
    | '"' :: inner => String.ofList inner.reverse
    | _ => text
  | _ => text

/-- The name of the variable of a key. -/
def variableOf (s : Settings) (key : String) : String :=
  s.variableStart ++ String.ofList (key.toList.map fun c => if c = '.' then '_' else c)

/-- The value of a key in the environment. -/
def fromEnvironment? (s : Settings) (key : String) : Option String :=
  if s.variableStart.isEmpty then none else s.environment.get? (s.variableOf key)

/-- The value of a key in the file. -/
def fromFile? (s : Settings) (key : String) : Option String :=
  ((s.ini.get? mainSection key).or (s.ini.get? Ini.defaultSection key)).map unquoted

/-- The value of a key. -/
def get? (s : Settings) (key : String) : Option String :=
  (s.fromEnvironment? key).or (s.fromFile? key)

/-- Whether a key has a value. -/
def isSet (s : Settings) (key : String) : Bool := (s.get? key).isSome

/-- A text. -/
def getString (s : Settings) (key default : String) : String := (s.get? key).getD default

/-- A truth value: every value but `1`, `true` and `yes` is false. -/
def getBool (s : Settings) (key : String) (default : Bool) : Bool :=
  match s.get? key with
  | some value =>
    let value := lowercase value
    value == "1" || value == "true" || value == "yes"
  | none => default

/-- A signed 32-bit integer. -/
def getInt (s : Settings) (key : String) (default : Int32) : Int32 :=
  ((s.get? key).bind readInt32).getD default

/-- A single. -/
def getSingle (s : Settings) (key : String) (default : Single) : Single :=
  ((s.get? key).bind Single.read?).getD default

/-- The directory for log files; without one nothing is logged to a
file. -/
def logDirectory? (s : Settings) : Option String :=
  let path := s.getString "LogsDir" ""
  if path.isEmpty then none else some path

end Settings

/-- The name of a verbosity level in the log. -/
def logLevelName (level : Int32) : String :=
  if level ≤ 0 then "warn"
  else if level = 1 then "error"
  else if level = 2 then "info"
  else if level = 3 then "debug"
  else "trace"

end Battlemap
