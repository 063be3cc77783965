import Battlemap.Board.Damage
import Battlemap.Board.Lookup
import Battlemap.Board.Statistics
import Battlemap.Build.Assembly
import Battlemap.Command.Arguments
import Battlemap.MapFile.Codec
import Battlemap.Scene.Population
import Battlemap.Stitch.Composition

/-!
# `Battlemap.Command.Run`: carrying out a command

A command reads its files, works on them, and ends with what it prints
and at most one file to write, or with an error. It sees files only
through a function from names to contents, so what it does is a
function of its arguments, its files and its environment.
-/

set_option autoImplicit false

namespace Battlemap

/-- The contents of the files that can be read. -/
abbrev FileReader := String → Option (List UInt8)

/-- How a command ends. -/
inductive Outcome where
  /-- It printed something. -/
  | printed (output : String)
  /-- It printed something and writes a file. -/
  | writes (output : String) (path : String) (content : List UInt8)
  /-- It failed. -/
  | failed (message : String)
deriving DecidableEq

/-! ### Texts -/

/-- A vector as reports show it. -/
def Vec3.text (v : Vec3) : String :=
  "Vec3(" ++ v.x.componentText ++ ", " ++ v.y.componentText ++ ", " ++ v.z.componentText ++ ")"

/-- The report on a map. -/
def Board.infoText (b : Board) : String :=
  let g := b.grid
  let counts := b.statistics
  s!"grid:          {g.width}x{g.height} tiles of " ++ g.tileSize.plainText ++ "\n"
    ++ "origin:        " ++ g.origin.text ++ "\n"
    ++ "heights:       " ++ g.minHeight.plainText ++ " .. " ++ g.maxHeight.plainText ++ "\n"
    ++ s!"metadata size: {b.payloadSize}\n"
    ++ s!"tiles:         {counts.tiles} ({counts.occupiedTiles} occupied)\n"
    ++ s!"levels:        {counts.levels} (max {counts.maxLevelsPerTile} per tile)\n"
    ++ s!"destructible:  {counts.destructibleLevels}\n"
    ++ s!"structural:    {counts.structuralLevels}\n"
    ++ s!"destroyed:     {counts.destroyedLevels}\n"

/-- The report on a level that was looked up. -/
def Board.standingText (b : Board) (s : Standing) : String :=
  let header := ((b.dataOf? s.levelIndex).map LevelData.header).getD .plain
  s!"tile {s.cell.x},{s.cell.z} level {s.level} floor " ++ s.floorHeight.fixedText 3
    ++ (if s.matched then "" else " (fallback)")
    ++ s!" instance {header.instanceId} type {header.kind.name} integrity {header.integrity}\n"

/-- The report on a lookup. -/
def Board.queryText (b : Board) (q : Board.Query) : String :=
  match b.lookup q with
  | some standing => b.standingText standing
  | none => "no level at " ++ q.point.text ++ "\n"

/-- The report on a level that was struck. -/
def Strike.text (s : Strike) : String :=
  s!"tile {s.cell.x},{s.cell.z} level {s.level} integrity {s.integrity}"
    ++ (if s.destroyed then " destroyed" else "") ++ "\n"

/-- The report on a damage event. -/
def DamageReport.text (r : DamageReport) : String :=
  String.join (r.strikes.toList.map Strike.text)
    ++ s!"{r.visited.size} tiles visited, {r.strikes.size} levels damaged, "
    ++ s!"{r.destroyedCount} destroyed\n"

/-! ### Files -/

/-- The text of a file. -/
def readText? (read : FileReader) (path : String) : Option String :=
  (read path).bind Utf8.decode?

/-- The map in a file. -/
def loadBoard (read : FileReader) (path : String) : Except String Board :=
  match (read path).map MapFile.load with
  | some (.ok board) => .ok board
  | _ => .error ("loading " ++ path)

/-- The end of a command that writes a map. -/
def writeBoard (output : String) (path : String) (b : Board) : Outcome :=
  match MapFile.save b with
  | .ok content => .writes output path content
  | .error _ => .failed ("writing " ++ path)

/-- The settings of an invocation; a file that is missing or malformed
counts as empty. -/
def settingsOf (read : FileReader) (environment : Environment) (path : String) : Settings :=
  { ini := ((readText? read path).bind Ini.read?).getD .empty
    environment := environment
    variableStart := "Tacmap_" }

/-! ### Commands -/

/-- The configuration in a file. -/
def readConfigFile (read : FileReader) (path : String) : Except String BuildConfig :=
  match readText? read path with
  | none => .error ("reading " ++ path)
  | some text =>
    match BuildConfig.read? text with
    | none => .error ("parsing " ++ path)
    | some config => .ok config

/-- The scene in a file. -/
def readSceneFile (read : FileReader) (path : String) : Except String Scene :=
  match readText? read path with
  | none => .error ("reading scene " ++ path)
  | some text =>
    match Scene.read? text with
    | none => .error ("parsing scene " ++ path)
    | some scene => .ok scene

/-- Build the map of a scene file. -/
def buildScene (settings : Settings) (read : FileReader) (scene : String)
    (config : Option String) (options : BuildOptions) : Except String Board := do
  let json ← config.mapM (readConfigFile read)
  let description ← readSceneFile read scene
  let builder := Builder.ofConfig (BuildConfig.layered settings json options)
  match description.populate builder with
  | (_, some e) => throw e.headline
  | (builder, none) =>
    match builder.build with
    | .ok board => return board
    | .error e => throw e.message

/-- Put the maps of some files together. -/
def stitchFiles (read : FileReader) (placements : List ParcelPlacement) : Except String Board := do
  let parcels ← placements.mapM fun p => do
    let board ← loadBoard read p.path
    return (⟨board, p.position, p.rotation, p.parcel⟩ : Parcel)
  match stitch parcels with
  | .ok board => return board
  | .error e => throw e.message

/-- Carry out a command. -/
def Command.run (settings : Settings) (read : FileReader) (command : Command) : Outcome :=
  let outcome : Except String Outcome := match command with
    | .build scene output config options =>
      (buildScene settings read scene config options).map (writeBoard "" output)
    | .stitch output parcels => (stitchFiles read parcels).map (writeBoard "" output)
    | .info map => (loadBoard read map).map fun b => .printed b.infoText
    | .query map point range mask =>
      (loadBoard read map).map fun b => .printed (b.queryText ⟨point, range, mask⟩)
    | .damage map min max output =>
      (loadBoard read map).map fun b =>
        let (after, report) := b.damage (.ofCorners (min.min max) (min.max max))
        writeBoard report.text (output.getD map) after
  match outcome with
  | .ok outcome => outcome
  | .error message => .failed message

/-- The files that an invocation may read. -/
def Invocation.inputs (i : Invocation) : List String :=
  i.settingsFile :: match i.command with
    | .build scene _ config _ => config.toList ++ [scene]
    | .stitch _ parcels => parcels.map ParcelPlacement.path
    | .info map => [map]
    | .query map _ _ _ => [map]
    | .damage map _ _ _ => [map]

end Battlemap
