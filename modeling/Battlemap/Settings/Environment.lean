/-!
# `Battlemap.Settings.Environment`: environment variables

The environment is a list of texts `NAME=VALUE`. The value of a name is
what follows the name and an equals sign in the first such text, so a
name that holds an equals sign itself finds the rest of a value that
starts with its end.
-/

set_option autoImplicit false

namespace Battlemap

/-- Environment variables by name and value, with distinct names. -/
structure Environment where
  entries : List (String × String)

namespace Environment

/-- No variables. -/
def empty : Environment := ⟨[]⟩

/-- Give a variable a value. -/
def put (e : Environment) (name value : String) : Environment :=
  ⟨(name, value) :: e.entries.filter fun (other, _) => other != name⟩

/-- Variables given one after another; of two with one name the later one
counts. -/
def ofList (pairs : List (String × String)) : Environment :=
  pairs.foldl (fun e (name, value) => e.put name value) empty

/-- The value of a name; the empty name has none. -/
def get? (e : Environment) (name : String) : Option String :=
  if name.isEmpty then none
  else
    e.entries.findSome? fun (other, value) =>
      ((name ++ "=").toList.isPrefixOf? (other ++ "=" ++ value).toList).map String.ofList

end Environment

end Battlemap
