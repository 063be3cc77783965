import Battlemap.Board.Consistency
import Battlemap.Proofs.Grid

/-!
# `Battlemap.Proofs.Consistency`: what the check of a map establishes

`Board.Consistent` says in one place what `Board.defect?` looks for tile
by tile, and `defect?_eq_none_iff` that the check finds nothing exactly
on consistent boards. Everything that rests on the check goes through
this equivalence and the three facts it is made of:

* every run of levels lies inside the level array (`Consistent.level`);
* every level of a run has data that records the position of the level
  in its tile (`Consistent.hasData`);
* hence two positions of one tile never share their data
  (`Consistent.dataIndex_inj`), although two tiles may.
-/

set_option autoImplicit false

namespace Battlemap

namespace Board

/-- The level at a position of a tile has data that records the
position. -/
def HasData (b : Board) (level : Level) (position : Nat) : Prop :=
  ∃ data, b.data[level.dataIndex.toNat]? = some data ∧ data.header.position.toNat = position

/-- The arrays of the board make up a map. -/
structure Consistent (b : Board) : Prop where
  tileCount : b.tiles.size = b.grid.tileCount
  run_le : ∀ tile ∈ b.tiles, tile.first + tile.count ≤ b.levels.size
  hasData : ∀ tile ∈ b.tiles, ∀ position < tile.count, ∀ level,
    b.levels[tile.first + position]? = some level → b.HasData level position

/-! ### The check finds nothing exactly on consistent boards -/

/-- The check of a position finds nothing exactly if the level there, if any, has data that
records the position. -/
theorem levelDefect?_eq_none_iff {b : Board} {index : Nat} {tile : Tile} {position : Nat} :
    b.levelDefect? index tile position = none ↔
      ∀ level, b.levels[tile.first + position]? = some level → b.HasData level position := by
  unfold levelDefect? HasData
  cases b.levels[tile.first + position]? with
  | none => simp
  | some level =>
    cases hdata : b.data[level.dataIndex.toNat]? with
    | none => simp [hdata]
    | some data => simp [hdata]

/-- The check of a tile finds nothing exactly if its run lies inside the level array and its
levels have data that records their positions. -/
theorem tileDefect?_eq_none_iff {b : Board} {index : Nat} {tile : Tile} :
    b.tileDefect? index tile = none ↔
      tile.first + tile.count ≤ b.levels.size ∧
        ∀ position < tile.count, ∀ level,
          b.levels[tile.first + position]? = some level → b.HasData level position := by
  unfold tileDefect?
  split
  case isTrue hlt => simp [Nat.not_le.mpr hlt]
  case isFalse hle =>
    simp only [List.findSome?_eq_none_iff, List.mem_range, levelDefect?_eq_none_iff]
    exact (and_iff_right (Nat.not_lt.mp hle)).symm

/-- The check finds nothing wrong exactly with consistent boards. -/
theorem defect?_eq_none_iff {b : Board} : b.defect? = none ↔ b.Consistent := by
  unfold defect?
  split
  case isFalse hne => exact ⟨fun h => by simp at h, fun h => absurd h.tileCount hne⟩
  case isTrue heq =>
    simp only [List.findSome?_eq_none_iff, tileDefect?_eq_none_iff]
    constructor
    · intro h
      -- The check numbers the tiles; the numbers only matter for what it reports.
      have each (tile : Tile) (ht : tile ∈ b.tiles) :
          tile.first + tile.count ≤ b.levels.size ∧
            ∀ position < tile.count, ∀ level,
              b.levels[tile.first + position]? = some level → b.HasData level position := by
        obtain ⟨i, hi, hget⟩ := List.mem_iff_getElem.mp ht.val
        refine h (tile, i) (List.mem_zipIdx_iff_getElem?.mpr ?_)
        exact List.getElem?_eq_some_iff.mpr ⟨hi, hget⟩
      exact ⟨heq, fun tile ht => (each tile ht).1, fun tile ht => (each tile ht).2⟩
    · rintro hb ⟨tile, i⟩ hmem
      have ht : tile ∈ b.tiles :=
        ⟨List.mem_of_getElem? (List.mem_zipIdx_iff_getElem?.mp hmem)⟩
      exact ⟨hb.run_le tile ht, hb.hasData tile ht⟩

/-- A board is made of parts exactly if they agree, and then it has those
parts. -/
theorem ofParts_eq_ok_iff {grid : Grid} {payloadSize : UInt32} {tiles : Array Tile}
    {levels : Array Level} {data : Array LevelData} {b : Board} :
    ofParts grid payloadSize tiles levels data = .ok b ↔
      b = ⟨grid, payloadSize, tiles, levels, data⟩ ∧ b.Consistent := by
  rw [← defect?_eq_none_iff]
  unfold ofParts
  constructor
  · intro h
    dsimp only at h
    split at h
    · cases h
    · next hnone => cases h; exact ⟨rfl, hnone⟩
  · rintro ⟨rfl, hnone⟩
    simp [hnone]

/-- Whatever is accepted is consistent. -/
theorem Consistent.of_ofParts {grid : Grid} {payloadSize : UInt32} {tiles : Array Tile}
    {levels : Array Level} {data : Array LevelData} {b : Board}
    (h : ofParts grid payloadSize tiles levels data = .ok b) : b.Consistent :=
  (ofParts_eq_ok_iff.mp h).2

/-! ### What is found on a consistent board -/

/-- The tile at a cell is the one at its index, if the cell is in the grid. -/
theorem tile?_eq_some_iff {b : Board} {c : Cell} {tile : Tile} :
    b.tile? c = some tile ↔
      b.grid.contains c = true ∧ b.tiles[b.grid.tileIndex c]? = some tile := by
  rw [tile?, Option.ite_none_right_eq_some]

/-- Only cells of the grid have a tile. -/
theorem contains_of_tile? {b : Board} {c : Cell} {tile : Tile} (h : b.tile? c = some tile) :
    b.grid.contains c = true :=
  (tile?_eq_some_iff.mp h).1

/-- The tile at a cell is one of the tiles of the board. -/
theorem mem_tiles_of_tile? {b : Board} {c : Cell} {tile : Tile} (h : b.tile? c = some tile) :
    tile ∈ b.tiles :=
  Array.mem_of_getElem? (tile?_eq_some_iff.mp h).2

namespace Consistent

variable {b : Board}

/-- A tile of the grid is in the tile array. -/
theorem tile (hb : b.Consistent) {c : Cell} (hc : b.grid.contains c = true) :
    ∃ tile ∈ b.tiles, b.tiles[b.grid.tileIndex c]? = some tile := by
  have hlt : b.grid.tileIndex c < b.tiles.size := hb.tileCount ▸ Grid.tileIndex_lt hc
  exact ⟨b.tiles[b.grid.tileIndex c], Array.getElem_mem hlt, Array.getElem?_eq_getElem hlt⟩

/-- The levels of a tile are in the level array. -/
theorem level (hb : b.Consistent) {tile : Tile} (ht : tile ∈ b.tiles) {position : Nat}
    (hp : position < tile.count) :
    ∃ level, b.levels[tile.first + position]? = some level := by
  have hle := hb.run_le tile ht
  exact ⟨_, Array.getElem?_eq_getElem (by omega : tile.first + position < b.levels.size)⟩

/-- The levels at two positions of one tile have different data. -/
theorem dataIndex_inj (hb : b.Consistent) {tile : Tile} (ht : tile ∈ b.tiles) {p q : Nat}
    (hp : p < tile.count) (hq : q < tile.count) {l m : Level}
    (hl : b.levels[tile.first + p]? = some l) (hm : b.levels[tile.first + q]? = some m)
    (h : l.dataIndex = m.dataIndex) : p = q := by
  -- The shared entry records one position, and both levels are at it.
  obtain ⟨d, hd, rfl⟩ := hb.hasData tile ht p hp l hl
  obtain ⟨e, he, rfl⟩ := hb.hasData tile ht q hq m hm
  rw [h, he] at hd
  cases hd
  rfl

/-- Consistency reads nothing of the data but the stored positions. -/
theorem withData (hb : b.Consistent) {data : Array LevelData}
    (hsame : ∀ (i : Nat) (d : LevelData), b.data[i]? = some d →
      ∃ d' : LevelData, data[i]? = some d' ∧ d'.header.position = d.header.position) :
    Consistent { b with data := data } where
  tileCount := hb.tileCount
  run_le := hb.run_le
  hasData tile ht position hp level hl := by
    obtain ⟨d, hd, hpos⟩ := hb.hasData tile ht position hp level hl
    obtain ⟨d', hd', hsame⟩ := hsame _ d hd
    exact ⟨d', hd', by rw [hsame, hpos]⟩

end Consistent

end Board

end Battlemap
