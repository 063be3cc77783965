import Battlemap.Board.Consistency
import Battlemap.Build.Solid
import Battlemap.Number.Decimal

/-!
# `Battlemap.Build.Config`: settings of a build

The settings, the checks that come before the first solid is looked at,
and the grid that they lead to. The checks run in a fixed order, and
the first one that fails is reported.
-/

set_option autoImplicit false

namespace Battlemap

/-- The settings of a build. -/
structure BuildConfig where
  /-- World units per tile along X and Z. -/
  tileSize : Single
  /-- The height at which the sampling rays start. -/
  minRayHeight : Single
  /-- Surfaces steeper than this, in degrees from horizontal, are left out
  of the statistics of a level. -/
  maxInclination : Single
  payloadSize : UInt32
  /-- The bounds of the grid, if not those of the solids. -/
  bounds : Option Box
deriving DecidableEq

namespace BuildConfig

/-- Tiles of one unit, rays from 1000 units below, slopes up to 60
degrees, no payload. -/
def standard : BuildConfig := ⟨.one, ⟨0xc47a0000⟩, ⟨0x42700000⟩, 0, none⟩

instance : Inhabited BuildConfig := ⟨standard⟩

/-- The steepest inclination that can be asked for, a right angle. -/
def rightAngle : Single := ⟨0x42b40000⟩

/-- The least `|normal.y|` that a floor or ceiling has to exceed. -/
def minNormalY (c : BuildConfig) : Single :=
  (c.maxInclination.clamp .zero rightAngle).toRadians.cos

end BuildConfig

/-- Why a build fails. -/
inductive BuildError where
  | emptyScene
  | payloadTooLarge (size limit : UInt32)
  | invalidTileSize (size : Single)
  | nonFiniteBounds
  | gridTooLarge (width height : UInt64) (limit : Nat)
  | inconsistent (defect : Defect)
deriving DecidableEq

/-- The message of the error. -/
def BuildError.message : BuildError → String
  | emptyScene => "scene contains no solids"
  | payloadTooLarge size limit => s!"metadata size {size} exceeds the {limit} byte limit"
  | invalidTileSize size => "invalid tile size " ++ size.plainText
  | nonFiniteBounds => "scene bounds are not finite"
  | gridTooLarge width height limit =>
    s!"grid of {width}x{height} tiles exceeds the {limit} tile coordinate limit"
  | inconsistent defect => defect.message

/-- Settings and the solids registered so far. -/
structure Builder where
  config : BuildConfig
  solids : Array Solid
deriving DecidableEq, Inhabited

namespace Builder

/-- A builder without solids. -/
def ofConfig (config : BuildConfig) : Builder := ⟨config, #[]⟩

/-- Register a solid behind those registered before. -/
def add (b : Builder) (solid : Solid) : Builder := { b with solids := b.solids.push solid }

/-- The bounds of all solids. -/
def solidBounds (b : Builder) : Box :=
  b.solids.foldl (fun bounds solid => bounds.merge solid.bounds) .empty

/-- Bounds that a grid can cover. -/
def checkBounds (bounds : Box) : Except BuildError Unit :=
  if bounds.isEmpty || !bounds.min.isFinite || !bounds.max.isFinite then .error .nonFiniteBounds
  else .ok ()

/-- The grid over some bounds, unless it has too many tiles on an axis. -/
def gridOver (bounds : Box) (tileSize : Single) : Except BuildError Grid :=
  let (width, height) := Grid.dimensionsFor bounds tileSize
  if Grid.dimensionLimit < width.toNat ∨ Grid.dimensionLimit < height.toNat then
    .error (.gridTooLarge width height Grid.dimensionLimit)
  else
    .ok ⟨width.toUInt32, height.toUInt32, tileSize, bounds.min, bounds.min.y, bounds.max.y⟩

/-- The grid of the build, after all checks that need no sampling. -/
def grid (b : Builder) : Except BuildError Grid := do
  if b.solids.isEmpty then throw .emptyScene
  if payloadLimit < b.config.payloadSize then
    throw (.payloadTooLarge b.config.payloadSize payloadLimit)
  let tileSize := b.config.tileSize
  if !(tileSize.isFinite && decide (Single.zero < tileSize)) then
    throw (.invalidTileSize tileSize)
  let bounds := b.config.bounds.getD b.solidBounds
  checkBounds bounds
  gridOver bounds tileSize

end Builder

end Battlemap
