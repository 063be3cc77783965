import Battlemap.Stitch.Parcel

/-!
# `Battlemap.Stitch.Composition`: putting parcels together

Parcels are copied one after the other. Level records and gameplay data
go behind those of the parcels before; only normals are turned, heights
raised and references moved by the lengths of what was there. Then each
tile with levels is put where its cell lands; landing on a tile with
levels is an error.
-/

set_option autoImplicit false

namespace Battlemap

/-- A level as a turned and raised parcel has it, with its data at an
offset. -/
def Level.placed (l : Level) (rotation : Rotation) (dy : Single) (dataOffset : UInt32) : Level :=
  { l with
    floor := (l.floor.turned rotation.quarterTurns).raised dy
    ceiling := (l.ceiling.turned rotation.quarterTurns).raised dy
    baseHeight := l.baseHeight + dy
    dataIndex := l.dataIndex + dataOffset }

/-- Gameplay data as a parcel brings it along: marked with the parcel's
identifier, with a payload of the destination's length. -/
def LevelData.placed (d : LevelData) (parcel : UInt32) (payloadSize : Nat) : LevelData :=
  let resized := d.resized payloadSize
  { resized with header := { resized.header with instanceId := parcel } }

/-- The first thing wrong with a tile that is being put down. `Board.tileDefect?` looks at
the range of the run before its levels; here each position is looked for on its own, so
a defect of a level below the first missing one is reported in its place. -/
def Board.runDefect? (b : Board) (index : Nat) (tile : Tile) : Option Defect :=
  (List.range tile.count).findSome? fun position =>
    if b.levels.size ≤ tile.first + position then
      some (.levelRange index tile.levelStart tile.levelCount b.levels.size)
    else b.levelDefect? index tile position

namespace Parcel

/-- How far one axis of a parcel is moved, in tiles. -/
def axisOffset (position origin tileSize : Single) : Int :=
  ((position - origin) / tileSize).round.toInt64.toInt

/-- Where a cell of the parcel lands in the destination; `none` if that is
outside. -/
def landing? (p : Parcel) (g : Grid) (c : Cell) : Option Cell :=
  let source := p.board.grid
  let turned := p.rotation.cell source.width source.height c
  let x := axisOffset p.position.x g.origin.x g.tileSize + turned.x.toNat
  let z := axisOffset p.position.z g.origin.z g.tileSize + turned.z.toNat
  if g.inBounds x z then some ⟨x.toNat.toUInt32, z.toNat.toUInt32⟩ else none

/-- Put the tile of a cell where it lands. The board holds the records of
this parcel and of those before it. -/
def placeTile (p : Parcel) (levelOffset : UInt32) (b : Board) (c : Cell) :
    Except StitchError Board :=
  match p.board.tile? c, p.landing? b.grid c with
  | some tile, some target =>
    if tile.levelCount = 0 then .ok b
    else
      let index := b.grid.tileIndex target
      if (b.tiles.getD index default).levelCount != 0 then .error (.overlap p.id target)
      else
        let placed : Tile := ⟨tile.levelCount, tile.levelStart + levelOffset⟩
        match b.runDefect? index placed with
        | some defect => .error (.invalid p.id defect)
        | none => .ok { b with tiles := b.tiles.setIfInBounds index placed }
  | _, _ => .ok b

/-- Copy a parcel into the destination. -/
def copyInto (b : Board) (p : Parcel) : Except StitchError Board :=
  match p.board.defect? with
  | some defect => .error (.invalid p.id defect)
  | none =>
    let levelOffset := b.levels.size.toUInt32
    let dataOffset := b.data.size.toUInt32
    let grown : Board :=
      { b with
        levels := b.levels ++ p.board.levels.map fun level =>
          level.placed p.rotation p.position.y dataOffset
        data := b.data ++ p.board.data.map fun data => data.placed p.id b.payloadSize.toNat }
    p.board.grid.cells.foldlM (p.placeTile levelOffset) grown

end Parcel

/-- The longest payload of some parcels. -/
def longestPayload (parcels : List Parcel) : UInt32 :=
  parcels.foldl
    (fun longest p => if longest < p.board.payloadSize then p.board.payloadSize else longest) 0

/-- Put parcels together into one map. -/
def stitch (parcels : List Parcel) : Except StitchError Board := do
  let g ← Parcel.destination parcels
  let blank : Board :=
    ⟨g, longestPayload parcels, Array.replicate g.tileCount ⟨0, 0⟩, #[], #[]⟩
  let b ← parcels.foldlM Parcel.copyInto blank
  match Board.ofParts b.grid b.payloadSize b.tiles b.levels b.data with
  | .ok board => return board
  | .error defect => throw (.inconsistent defect)

end Battlemap
