import Battlemap.Command.OptionSyntax
import Battlemap.Command.Placement
import Battlemap.Settings.BuildSettings

/-!
# `Battlemap.Command.Arguments`: the commands and their arguments

The program has five commands: `build` makes a map from a scene, `stitch`
puts maps together, `info` prints the counts of a map, `query` looks up
a level and `damage` applies a damage box. Options in front of the
command concern all of them.
-/

set_option autoImplicit false

namespace Battlemap

/-- What the program is asked to do. -/
inductive Command where
  | build (scene output : String) (config : Option String) (options : BuildOptions)
  | stitch (output : String) (parcels : List ParcelPlacement)
  | info (map : String)
  | query (map : String) (point : Vec3) (range : Single) (mask : UInt32)
  | damage (map : String) (min max : Vec3) (output : Option String)
deriving DecidableEq

/-- A command with the options in front of it. -/
structure Invocation where
  logLevel : Option Int32
  settingsFile : String
  command : Command
deriving DecidableEq

namespace Argument

/-! ### Values -/

/-- An integer of 64 bits that lies in a range. -/
def integer (low high : Int) (text : String) : Option Int :=
  (readIntWithin Int64.minValue.toInt Int64.maxValue.toInt text).filter fun n =>
    low ≤ n && n ≤ high

/-- An unsigned 32-bit integer. -/
def uint32 (text : String) : Option UInt32 :=
  (integer 0 (UInt32.size - 1) text).map fun n => n.toNat.toUInt32

/-- A signed 32-bit integer. -/
def int32 (text : String) : Option Int32 :=
  (integer Int32.minValue.toInt Int32.maxValue.toInt text).map Int32.ofInt

/-- A thread count. -/
def threads (text : String) : Option Nat :=
  (readIntWithin 0 (UInt64.size - 1) text).map Int.toNat

/-- The name of a file, which is not empty. -/
def path (text : String) : Option String := if text.isEmpty then none else some text

/-- A point. -/
def point (text : String) : Option Vec3 := (readPoint text).toOption

/-- A parcel. -/
def placement (text : String) : Option ParcelPlacement := (readPlacement text).toOption

/-- An option that is given once at most, has no letter and refuses
hyphens. -/
def plain {α : Type} (name : String) (read : String → Option α) : OptionSpec :=
  ⟨name, none, .refuse, false, false, fun text => (read text).isSome⟩

/-- The option for the file that is written. -/
def outputOption : OptionSpec := { plain "output" path with letter := some 'o' }

/-- An operand that names a file. -/
def pathOperand (name : String) : OperandSpec := ⟨name, false, fun text => (path text).isSome⟩

/-! ### Commands -/

/-- The options in front of a command. -/
def programSpec : CommandSpec :=
  { options :=
      [{ plain "log-level" int32 with letter := some 'l' },
       { plain "config" some with letter := some 'c' }]
    operands := []
    hasVersion := true }

/-- The arguments of `build`. -/
def buildSpec : CommandSpec :=
  { options :=
      [outputOption, plain "builder-config" path, plain "tile-size" Single.read?,
       { plain "min-ray-height" Single.read? with hyphens := .negativeNumber },
       plain "max-floor-inclination" Single.read?, plain "metadata-size" uint32,
       plain "threads" threads]
    operands := [pathOperand "scene"]
    hasVersion := false }

/-- The arguments of `stitch`. -/
def stitchSpec : CommandSpec :=
  { options :=
      [outputOption,
       { plain "parcel" placement with hyphens := .allow, repeatable := true, required := true }]
    operands := []
    hasVersion := false }

/-- The arguments of `info`. -/
def infoSpec : CommandSpec :=
  { options := [], operands := [pathOperand "map"], hasVersion := false }

/-- The arguments of `query`. -/
def querySpec : CommandSpec :=
  { options := [plain "range" Single.read?, plain "mask" uint32]
    operands := [pathOperand "map", ⟨"point", true, fun text => (point text).isSome⟩]
    hasVersion := false }

/-- The arguments of `damage`. -/
def damageSpec : CommandSpec :=
  { options :=
      [{ plain "min" point with hyphens := .allow, required := true },
       { plain "max" point with hyphens := .allow, required := true }, outputOption]
    operands := [pathOperand "map"]
    hasVersion := false }

/-- The last value of a name. -/
def get? {α : Type} (values : ArgumentValues) (name : String) (read : String → Option α) :
    Option α :=
  ((values.filter fun (other, _) => other == name).getLast?).bind fun (_, text) => read text

/-- All values of a name. -/
def getAll {α : Type} (values : ArgumentValues) (name : String) (read : String → Option α) :
    List α :=
  (values.filter fun (other, _) => other == name).filterMap fun (_, text) => read text

/-- The commands by their names. -/
inductive CommandName where
  | build
  | stitch
  | info
  | query
  | damage
  | help
deriving DecidableEq, Repr

/-- The command with a name. -/
def CommandName.ofText? (text : String) : Option CommandName :=
  match text with
  | "build" => some build
  | "stitch" => some stitch
  | "info" => some info
  | "query" => some query
  | "damage" => some damage
  | "help" => some help
  | _ => none

/-- The command that some values make up; `none` if a required one is
missing. -/
def commandOf? (name : CommandName) (values : ArgumentValues) : Option Command :=
  match name with
  | .build => do
    let options : BuildOptions :=
      { tileSize := get? values "tile-size" Single.read?
        minRayHeight := get? values "min-ray-height" Single.read?
        maxInclination := get? values "max-floor-inclination" Single.read?
        payloadSize := get? values "metadata-size" uint32
        threads := get? values "threads" threads }
    return .build (← get? values "scene" path) ((get? values "output" path).getD "out.tmap")
      (get? values "builder-config" path) options
  | .stitch =>
    some (.stitch ((get? values "output" path).getD "stitched.tmap")
      (getAll values "parcel" placement))
  | .info => do return .info (← get? values "map" path)
  | .query => do
    return .query (← get? values "map" path) (← get? values "point" point)
      ((get? values "range" Single.read?).getD .one) ((get? values "mask" uint32).getD 0xffffffff)
  | .damage => do
    return .damage (← get? values "map" path) (← get? values "min" point)
      (← get? values "max" point) (get? values "output" path)
  | .help => none

/-- The arguments of a command. -/
def specOf : CommandName → CommandSpec
  | .build => buildSpec
  | .stitch => stitchSpec
  | .info => infoSpec
  | .query => querySpec
  | .damage => damageSpec
  | .help => programSpec

/-- What asking for help with some arguments comes to: help for the
program or for one command. -/
def helpStop : List String → Stop
  | [] => .help
  | [name] => if (CommandName.ofText? name).isSome then .help else .usage
  | _ => .usage

/-- Read the command and its arguments. -/
def readCommand (name : CommandName) (arguments : List String) : Except Stop Command :=
  if name = .help then .error (helpStop arguments)
  else do
    let values ← (specOf name).read arguments
    match commandOf? name values with
    | some command => return command
    | none => throw .usage

/-- Read the options in front of the command, then the command. -/
def readFrom (s : ArgumentState) : List String → Except Stop Invocation
  | [] => .error .usage
  | argument :: rest =>
    let name :=
      if s.pending.isNone && !s.onlyOperands then CommandName.ofText? argument else none
    match name with
    | some name => do
      let command ← readCommand name rest
      return ⟨get? s.values "log-level" int32,
        (get? s.values "config" some).getD "tacmap.conf", command⟩
    | none => do readFrom (← s.take programSpec argument) rest

end Argument

/-- Read the arguments of the program. -/
def Invocation.read (arguments : List String) : Except Stop Invocation :=
  Argument.readFrom .start arguments

end Battlemap
