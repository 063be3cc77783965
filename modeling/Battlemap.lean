import Battlemap.Board.Basic
import Battlemap.Board.Consistency
import Battlemap.Board.Damage
import Battlemap.Board.Lookup
import Battlemap.Board.Statistics
import Battlemap.Build.Assembly
import Battlemap.Build.Bond
import Battlemap.Build.Config
import Battlemap.Build.HeightField
import Battlemap.Build.Layer
import Battlemap.Build.LayerStatistics
import Battlemap.Build.PlaneFit
import Battlemap.Build.RayStack
import Battlemap.Build.Solid
import Battlemap.Build.TileBin
import Battlemap.Command.Arguments
import Battlemap.Command.Execution
import Battlemap.Command.FileSet
import Battlemap.Command.OptionSyntax
import Battlemap.Command.Placement
import Battlemap.Command.Run
import Battlemap.Executor
import Battlemap.Geometry.Box
import Battlemap.Geometry.Mesh
import Battlemap.Geometry.Placement
import Battlemap.Geometry.Plane
import Battlemap.Geometry.Ray
import Battlemap.Geometry.Vector
import Battlemap.Grid
import Battlemap.Level.Header
import Battlemap.Level.Record
import Battlemap.Main
import Battlemap.MapFile.Bytes
import Battlemap.MapFile.Codec
import Battlemap.MapFile.Error
import Battlemap.MapFile.Layout
import Battlemap.Number.Decimal
import Battlemap.Number.Double
import Battlemap.Number.Format
import Battlemap.Number.Integral
import Battlemap.Number.Single
import Battlemap.Number.Trigonometry
import Battlemap.Proofs.Build.Alternation
import Battlemap.Proofs.Build.Baking
import Battlemap.Proofs.Build.BoxIdentity
import Battlemap.Proofs.Build.Carrier
import Battlemap.Proofs.Build.Contribution
import Battlemap.Proofs.Build.Fitting
import Battlemap.Proofs.Build.Inclination
import Battlemap.Proofs.Build.LevelOrder
import Battlemap.Proofs.Build.Locality
import Battlemap.Proofs.Build.Neighbours
import Battlemap.Proofs.Build.Opposition
import Battlemap.Proofs.Build.Packing
import Battlemap.Proofs.Build.RayOrder
import Battlemap.Proofs.Build.Reach
import Battlemap.Proofs.Build.Refit
import Battlemap.Proofs.Build.Registration
import Battlemap.Proofs.Build.Span
import Battlemap.Proofs.Build.Tower
import Battlemap.Proofs.Build.WellPacked
import Battlemap.Proofs.Build.WindowAverage
import Battlemap.Proofs.Command.Grammar
import Battlemap.Proofs.Consistency
import Battlemap.Proofs.Damage.Collapse
import Battlemap.Proofs.Damage.Delivery
import Battlemap.Proofs.Damage.Effect
import Battlemap.Proofs.Damage.Endurance
import Battlemap.Proofs.Damage.Event
import Battlemap.Proofs.Damage.Footing
import Battlemap.Proofs.Damage.Independence
import Battlemap.Proofs.Damage.Keys
import Battlemap.Proofs.Damage.Ledger
import Battlemap.Proofs.Damage.Lifetime
import Battlemap.Proofs.Damage.Report
import Battlemap.Proofs.Damage.Run
import Battlemap.Proofs.Damage.Spread
import Battlemap.Proofs.Damage.Sweep
import Battlemap.Proofs.Damage.Toll
import Battlemap.Proofs.Damage.Wear
import Battlemap.Proofs.FirstDefect
import Battlemap.Proofs.Grid
import Battlemap.Proofs.Header
import Battlemap.Proofs.InPlace
import Battlemap.Proofs.Lookup
import Battlemap.Proofs.MapFile.Canonical
import Battlemap.Proofs.MapFile.Limit
import Battlemap.Proofs.MapFile.Reader
import Battlemap.Proofs.MapFile.RoundTrip
import Battlemap.Proofs.Number.Arithmetic
import Battlemap.Proofs.Number.Conversion
import Battlemap.Proofs.Number.Cosine
import Battlemap.Proofs.Number.Double
import Battlemap.Proofs.Number.Error
import Battlemap.Proofs.Number.Operations
import Battlemap.Proofs.Number.Rounding
import Battlemap.Proofs.Number.SignedZero
import Battlemap.Proofs.Number.Unpacked
import Battlemap.Proofs.Number.Whole
import Battlemap.Proofs.Number.Word
import Battlemap.Proofs.Obtained
import Battlemap.Proofs.Population
import Battlemap.Proofs.Settings.Layers
import Battlemap.Proofs.Sharing
import Battlemap.Proofs.Stitch.Copying
import Battlemap.Proofs.Stitch.Counting
import Battlemap.Proofs.Stitch.Coverage
import Battlemap.Proofs.Stitch.Isolation
import Battlemap.Proofs.Stitch.Landing
import Battlemap.Proofs.Stitch.Rebasing
import Battlemap.Proofs.Stitch.Refusal
import Battlemap.Proofs.Stitch.Reordering
import Battlemap.Proofs.Stitch.Side
import Battlemap.Proofs.Stitch.Turning
import Battlemap.Proofs.Success
import Battlemap.Scene.Description
import Battlemap.Scene.Population
import Battlemap.Settings.BuildSettings
import Battlemap.Settings.Environment
import Battlemap.Settings.Ini
import Battlemap.Settings.Lookup
import Battlemap.Stitch.Composition
import Battlemap.Stitch.Parcel
import Battlemap.Stitch.Rotation
import Battlemap.Text.Blank
import Battlemap.Text.CaseIgnorable
import Battlemap.Text.Cased
import Battlemap.Text.CharRanges
import Battlemap.Text.Hex
import Battlemap.Text.Json
import Battlemap.Text.Lowercase
import Battlemap.Text.Quoted
import Battlemap.Text.Unprintable
import Battlemap.Text.Utf8
