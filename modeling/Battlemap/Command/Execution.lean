import Battlemap.Command.FileSet
import Battlemap.Command.Run

/-!
# `Battlemap.Command.Execution`: running the program on some files

A run of the program turns its arguments, its environment and some files
into an exit code, what it prints, and the files it leaves behind. The
exit code is 0 if all went well, 1 after an error, 2 if the arguments do
not make sense, and 101 if the directory for the log cannot be made.
-/

set_option autoImplicit false

namespace Battlemap

/-- What a run leaves behind: its exit code, what it printed, its error
output, and the files. -/
structure Run where
  code : UInt32
  output : String
  error : String
  files : FileSet

/-- The first line of the error output. -/
def Run.errorLine (run : Run) : String :=
  let line := run.error.toList.takeWhile (· != '\n')
  String.ofList (if line.getLast? = some '\r' then line.dropLast else line)

/-- The version line. -/
def versionText : String := "tacmap 0.1.0\n"

/-- A short reminder of the commands. -/
def usageText : String :=
  "Usage: tacmap [OPTIONS] <COMMAND>\n\nCommands:\n"
    ++ "  build   Build a tactical map from a JSON scene\n"
    ++ "  stitch  Combine built maps into one\n"
    ++ "  info    Print map statistics\n"
    ++ "  query   Look up the level at a world position\n"
    ++ "  damage  Apply a damage box to a map\n"

/-- The text that reports an error. -/
def errorText (message : String) : String := "Error: " ++ message ++ "\n"

/-- The text that reports a directory for the log that cannot be made. -/
def logFailureText : String := "initializing the log file failed\n"

/-- The end of a run that stops at its arguments. -/
def Stop.toRun (stop : Stop) (files : FileSet) : Run :=
  match stop with
  | .help => ⟨0, usageText, "", files⟩
  | .version => ⟨0, versionText, "", files⟩
  | .usage => ⟨2, "", usageText, files⟩

/-- The files after the directory for the log is made, if there is to be
one; `none` if that fails. -/
def FileSet.withLogDirectory? (files : FileSet) (settings : Settings) : Option FileSet :=
  match settings.logDirectory? with
  | some path => files.makeDirectory? path
  | none => some files

/-- Carry out an invocation on some files. -/
def Invocation.execute (invocation : Invocation) (environment : Environment) (files : FileSet) :
    Run :=
  let settings := settingsOf files.read environment invocation.settingsFile
  match files.withLogDirectory? settings with
  | none => ⟨101, "", logFailureText, files⟩
  | some files =>
    match invocation.command.run settings files.read with
    | .printed output => ⟨0, output, "", files⟩
    | .failed message => ⟨1, "", errorText message, files⟩
    | .writes output path content =>
      match files.write? path content with
      | some files => ⟨0, output, "", files⟩
      | none => ⟨1, output, errorText ("writing " ++ path), files⟩

/-- Run the program on some files. -/
def FileSet.run (files : FileSet) (environment : Environment) (arguments : List String) : Run :=
  match Invocation.read arguments with
  | .error stop => stop.toRun files
  | .ok invocation => invocation.execute environment files

end Battlemap
