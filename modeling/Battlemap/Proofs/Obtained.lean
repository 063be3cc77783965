import Battlemap.Proofs.Build.Packing
import Battlemap.Proofs.MapFile.Canonical
import Battlemap.Proofs.Stitch.Copying

/-!
# `Battlemap.Proofs.Obtained`: where boards come from

`Board.Obtained` lists the ways to a board: from its parts, from a file,
from a build and from stitching. All of them end with the check of the
parts, so an obtained board is consistent (`Obtained.consistent`), which is
all that damage and lookups ask of it.
-/

set_option autoImplicit false

namespace Battlemap

namespace Board

/-- The ways in which a board is obtained. -/
inductive Obtained : Board → Prop where
  | ofParts {grid : Grid} {payloadSize : UInt32} {tiles : Array Tile} {levels : Array Level}
      {data : Array LevelData} {b : Board}
      (h : Board.ofParts grid payloadSize tiles levels data = .ok b) : Obtained b
  | load {bytes : List UInt8} {b : Board} (h : MapFile.load bytes = .ok b) : Obtained b
  | build {builder : Builder} {b : Board} (h : builder.build = .ok b) : Obtained b
  | stitch {parcels : List Parcel} {b : Board} (h : Battlemap.stitch parcels = .ok b) : Obtained b

/-- Whichever way a board was obtained, it is consistent. -/
theorem Obtained.consistent {b : Board} (h : b.Obtained) : b.Consistent := by
  cases h with
  | ofParts h => exact .of_ofParts h
  | load h =>
    obtain ⟨rest, hrun⟩ := MapFile.exists_run_of_load h
    exact (MapFile.run_readBoard_eq_ok hrun).1
  | build h =>
    obtain ⟨grid, -, hconsistent, -⟩ := Builder.build_eq_ok_iff.mp h
    exact hconsistent
  | stitch h =>
    obtain ⟨grid, -, -, hconsistent⟩ := exists_of_stitch h
    exact hconsistent

end Board

end Battlemap
