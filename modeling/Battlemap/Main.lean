import Battlemap.Command.Execution

/-!
# `Battlemap.Main`: the program

The outer layer of the command line: it reads the files and variables
that an invocation may ask for, makes the directory for log files, runs
the command, prints what it says and writes the file that it ends with.
-/

set_option autoImplicit false

namespace Battlemap

/-- The settings that the program looks up. -/
def settingKeys : List String :=
  ["LogsDir", "TileSize", "MinRayHeight", "MaxFloorInclination", "MetadataSize", "Threads"]

/-- The content of a file, if it can be read. -/
def readFile (path : String) : IO (Option (List UInt8)) := do
  try
    let content ← IO.FS.readBinFile path
    return some content.toList
  catch _ => return none

/-- The variables of the settings that have a value. -/
def readEnvironment : IO Environment := do
  let pairs ← settingKeys.filterMapM fun key => do
    let name := "Tacmap_" ++ key
    return (← IO.getEnv name).map fun value => (name, value)
  return .ofList pairs

/-- Write a file; whether that succeeded. -/
def writeFile (path : String) (content : List UInt8) : IO Bool := do
  try
    IO.FS.writeBinFile path ⟨content.toArray⟩
    return true
  catch _ => return false

/-- Make a directory with those around it; whether that succeeded. -/
def makeDirectory (path : String) : IO Bool := do
  try
    IO.FS.createDirAll path
    return true
  catch _ => return false

/-- Print an error and return the code of a failed command. -/
def reportError (message : String) : IO UInt32 := do
  IO.eprint (errorText message)
  return 1

/-- Carry out a command on the files of the machine. -/
def Command.execute (command : Command) (settings : Settings) (read : FileReader) : IO UInt32 := do
  match command.run settings read with
  | .printed output =>
    IO.print output
    return 0
  | .failed message => reportError message
  | .writes output path content =>
    IO.print output
    if ← writeFile path content then return 0 else reportError ("writing " ++ path)

/-- Carry out an invocation on the files of the machine. -/
def Invocation.executeHere (invocation : Invocation) : IO UInt32 := do
  let environment ← readEnvironment
  let files ← invocation.inputs.filterMapM fun path => do
    return (← readFile path).map fun content => (path, content)
  let read : FileReader := fun path => files.lookup path
  let settings := settingsOf read environment invocation.settingsFile
  let ready ← match settings.logDirectory? with
    | some path => makeDirectory path
    | none => pure true
  if ready then invocation.command.execute settings read
  else
    IO.eprint logFailureText
    return 101

/-- Print what a run that stops at its arguments says. -/
def Stop.executeHere (stop : Stop) : IO UInt32 := do
  let run := stop.toRun .empty
  IO.print run.output
  IO.eprint run.error
  return run.code

end Battlemap

/-- Read the arguments and carry out the command. -/
def main (arguments : List String) : IO UInt32 :=
  match Battlemap.Invocation.read arguments with
  | .error stop => stop.executeHere
  | .ok invocation => invocation.executeHere
