import Battlemap.Build.Config
import Battlemap.Settings.Lookup
import Battlemap.Text.Json

/-!
# `Battlemap.Settings.BuildSettings`: the settings of a build

The settings of a build come in layers: the settings file and the
environment, then a JSON configuration, which replaces them as a whole,
then the options of the command line, one by one. What a JSON
configuration leaves out has its standard value.
-/

set_option autoImplicit false

namespace Battlemap

/-- The options of the command line that concern a build. -/
structure BuildOptions where
  tileSize : Option Single
  minRayHeight : Option Single
  maxInclination : Option Single
  payloadSize : Option UInt32
  threads : Option Nat
deriving DecidableEq, Inhabited

namespace Json

/-- A build configuration. -/
def toBuildConfig? (j : Json) : Option BuildConfig := do
  match ← j.record? ["tileSize", "minRayHeight", "maxFloorInclinationDeg", "metadataSize"] with
  | [tileSize, minRayHeight, maxInclination, payloadSize] =>
    let standard := BuildConfig.standard
    return ⟨← fieldOr standard.tileSize toSingle? tileSize,
      ← fieldOr standard.minRayHeight toSingle? minRayHeight,
      ← fieldOr standard.maxInclination toSingle? maxInclination,
      ← fieldOr standard.payloadSize toUInt32? payloadSize, none⟩
  | _ => none

end Json

namespace BuildConfig

/-- The configuration that a JSON text describes. -/
def read? (text : String) : Option BuildConfig := (Json.read? text).bind Json.toBuildConfig?

/-- The configuration of the settings file and the environment. A negative
payload length counts as zero. -/
def ofSettings (s : Settings) : BuildConfig where
  tileSize := s.getSingle "TileSize" standard.tileSize
  minRayHeight := s.getSingle "MinRayHeight" standard.minRayHeight
  maxInclination := s.getSingle "MaxFloorInclination" standard.maxInclination
  payloadSize :=
    let size := s.getInt "MetadataSize" 0
    if size < 0 then 0 else size.toUInt32
  bounds := none

/-- The configuration with the options that are given. -/
def withOptions (c : BuildConfig) (options : BuildOptions) : BuildConfig :=
  { c with
    tileSize := options.tileSize.getD c.tileSize
    minRayHeight := options.minRayHeight.getD c.minRayHeight
    maxInclination := options.maxInclination.getD c.maxInclination
    payloadSize := options.payloadSize.getD c.payloadSize }

/-- The configuration of all layers: the JSON configuration, if there is
one, in place of the settings, and the options on top. -/
def layered (s : Settings) (json : Option BuildConfig) (options : BuildOptions) : BuildConfig :=
  (json.getD (ofSettings s)).withOptions options

end BuildConfig

/-- The number of threads that was asked for, by option or else by
setting; `none` if the machine is to decide. The result of a build does
not depend on it. -/
def Settings.threads? (s : Settings) (options : BuildOptions) : Option Nat :=
  let setting := s.getInt "Threads" 0
  let asked := options.threads.or (if setting < 0 then none else some setting.toNatClampNeg)
  asked.filter (0 < ·)

end Battlemap
