import Battlemap.Proofs.Build.Baking
import Battlemap.Proofs.Build.LevelOrder
import Battlemap.Proofs.Sharing

/-!
# `Battlemap.Proofs.Build.WellPacked`: what a built board is like

The runs of packed tiles lie one behind the other: a later tile starts behind the
levels of an earlier one (`Packing.levelsBefore_add_length_le_levelsBefore`), and
every level is at a position of some tile (`Packing.exists_place`).

`Builder.WellPacked` says all of a board that a build makes sure of, whatever the
solids: how the runs divide the level array, which data a level has, and what the
header in it says. A build with a grid gives such a board
(`Builder.build_well_packed`), as long as its levels can be counted in 32 bits.
-/

set_option autoImplicit false

namespace Battlemap

namespace Packing

/-- The levels of a tile lie before those of every later tile. -/
theorem levelsBefore_add_length_le_levelsBefore {tiles : List (List Layer)} {j k : Nat}
    {layers : List Layer} (hj : tiles[j]? = some layers) (hjk : j < k) :
    levelsBefore tiles j + layers.length ≤ levelsBefore tiles k := by
  have htake : (tiles.take k)[j]? = some layers := by
    rw [List.getElem?_take_of_lt hjk]
    exact hj
  have hle := Holds.levelsBefore_add_length_le htake
  rwa [levelsBefore, List.take_take, Nat.min_eq_left (Nat.le_of_lt hjk)] at hle

/-- Every level is at a position of a tile. -/
theorem exists_place {tiles : List (List Layer)} {i : Nat} (h : i < tiles.flatten.length) :
    ∃ k layers position, tiles[k]? = some layers ∧ position < layers.length ∧
      i = levelsBefore tiles k + position := by
  induction tiles generalizing i with
  | nil => simp at h
  | cons first rest ih =>
    rw [List.flatten_cons, List.length_append] at h
    by_cases hfirst : i < first.length
    · exact ⟨0, first, i, rfl, hfirst, by simp [levelsBefore]⟩
    · obtain ⟨k, layers, position, hk, hp, hi⟩ := ih (i := i - first.length) (by omega)
      have hbefore : levelsBefore (first :: rest) (k + 1) = first.length + levelsBefore rest k := by
        simp [levelsBefore]
      exact ⟨k + 1, layers, position, hk, hp, by omega⟩

variable {solids : Array Solid} {payloadSize : Nat} {p : Packing} {tiles : List (List Layer)}

namespace Holds

/-- The packed tiles count the levels of the tiles, if those of a tile can be counted. -/
theorem map_count (h : Holds solids payloadSize p tiles)
    (hlayers : ∀ layers ∈ tiles, layers.length < UInt32.size) :
    p.tiles.toList.map Tile.count = tiles.map List.length := by
  refine List.ext_getElem? fun k => ?_
  rw [List.getElem?_map, List.getElem?_map, Array.getElem?_toList]
  cases hk : tiles[k]? with
  | none =>
    have hge : p.tiles.size ≤ k := h.tilesSize ▸ List.getElem?_eq_none_iff.mp hk
    rw [Array.getElem?_eq_none hge]
    rfl
  | some layers =>
    rw [h.tile hk, Option.map_some, Option.map_some, Tile.count]
    exact congrArg some (UInt32.toNat_ofNat_of_lt' (hlayers layers (List.mem_of_getElem? hk)))

/-- The levels before a tile are those that the tiles before it count. -/
theorem levelsBefore_eq (h : Holds solids payloadSize p tiles)
    (hlayers : ∀ layers ∈ tiles, layers.length < UInt32.size) (k : Nat) :
    levelsBefore tiles k = ((p.tiles.toList.take k).map Tile.count).sum := by
  rw [levelsBefore, List.length_flatten, List.map_take, List.map_take, h.map_count hlayers]

/-- If all levels can be counted then so can those of each tile. -/
theorem length_lt_of_mem (hlevels : tiles.flatten.length < UInt32.size) :
    ∀ layers ∈ tiles, layers.length < UInt32.size := fun _ hmem =>
  Nat.lt_of_le_of_lt (List.sublist_flatten_of_mem hmem).length_le hlevels

/-- The run of a packed tile starts where the runs of the tiles before it end. -/
theorem first_eq (h : Holds solids payloadSize p tiles)
    (hlevels : tiles.flatten.length < UInt32.size) {k : Nat} {tile : Tile}
    (hk : p.tiles[k]? = some tile) :
    tile.first = ((p.tiles.toList.take k).map Tile.count).sum := by
  obtain ⟨layers, -, hfirst, -⟩ := h.run hlevels hk
  rw [hfirst, h.levelsBefore_eq (length_lt_of_mem hlevels)]

/-- The runs of two packed tiles have no level in common. -/
theorem ne_of_ne (h : Holds solids payloadSize p tiles)
    (hlevels : tiles.flatten.length < UInt32.size) {j k : Nat} {s t : Tile}
    (hj : p.tiles[j]? = some s) (hk : p.tiles[k]? = some t) (hjk : j ≠ k) {x y : Nat}
    (hx : x < s.count) (hy : y < t.count) : s.first + x ≠ t.first + y := by
  obtain ⟨layers, hlayers, hfirst, hcount⟩ := h.run hlevels hj
  obtain ⟨layers', hlayers', hfirst', hcount'⟩ := h.run hlevels hk
  rcases Nat.lt_or_gt_of_ne hjk with hlt | hlt
  · have hle := levelsBefore_add_length_le_levelsBefore hlayers hlt
    omega
  · have hle := levelsBefore_add_length_le_levelsBefore hlayers' hlt
    omega

/-- The level at each place of the level array is that of a position of a tile. -/
theorem exists_position (h : Holds solids payloadSize p tiles)
    (hlevels : tiles.flatten.length < UInt32.size) {i : Nat} (hi : i < p.levels.size) :
    ∃ (k : Nat) (tile : Tile) (position : Nat), p.tiles[k]? = some tile ∧
      position < tile.count ∧ i = tile.first + position := by
  obtain ⟨k, layers, position, hk, hposition, rfl⟩ := exists_place (h.levelsSize ▸ hi)
  obtain ⟨tile, htile⟩ : ∃ tile, p.tiles[k]? = some tile := ⟨_, h.tile hk⟩
  obtain ⟨layers', hlayers', hfirst, hcount⟩ := h.run hlevels htile
  cases hk.symm.trans hlayers'
  exact ⟨k, tile, position, htile, hcount ▸ hposition, by rw [hfirst]⟩

/-- The record and the data at a position of a packed tile. -/
theorem at_position (h : Holds solids payloadSize p tiles)
    (hlevels : tiles.flatten.length < UInt32.size) {k position : Nat} {tile : Tile}
    {layers : List Layer} (htile : p.tiles[k]? = some tile) (hlayers : tiles[k]? = some layers)
    (hposition : position < tile.count) :
    ∃ layer, layers[position]? = some layer ∧
      p.levels[tile.first + position]? = some (layer.record (tile.first + position)) ∧
      p.data[tile.first + position]? = some (layer.levelData solids payloadSize position) := by
  obtain ⟨layers', hlayers', hfirst, hcount⟩ := h.run hlevels htile
  cases hlayers.symm.trans hlayers'
  have hlayer := List.getElem?_eq_getElem (hcount ▸ hposition)
  obtain ⟨hlevel, hdata⟩ := h.level hlayers hlayer
  rw [hfirst]
  exact ⟨_, hlayer, hlevel, hdata⟩

/-- Each record names the data at its own place. -/
theorem toNat_dataIndex (h : Holds solids payloadSize p tiles)
    (hlevels : tiles.flatten.length < UInt32.size) {i : Nat} {level : Level}
    (hlevel : p.levels[i]? = some level) : level.dataIndex.toNat = i := by
  have hi : i < p.levels.size := (Array.getElem?_eq_some_iff.mp hlevel).1
  obtain ⟨k, tile, position, hk, hposition, rfl⟩ := h.exists_position hlevels hi
  obtain ⟨layers, hlayers, -⟩ := h.run hlevels hk
  obtain ⟨layer, -, hrecord, -⟩ := h.at_position hlevels hk hlayers hposition
  cases hlevel.symm.trans hrecord
  exact UInt32.toNat_ofNat_of_lt' (Nat.lt_of_lt_of_le hi (h.levelsSize ▸ hlevels.le))

end Holds

end Packing

namespace Builder

/-- The levels of a build are no more than its tiles can have. -/
theorem length_layers_le (builder : Builder) (g : Grid) :
    (builder.layers g).flatten.length ≤ g.tileCount * levelLimit := by
  have hle : ∀ n ∈ (builder.layers g).map List.length, n ≤ levelLimit := by
    intro n hn
    obtain ⟨layers, hlayers, rfl⟩ := List.mem_map.mp hn
    exact length_le_of_mem_layers hlayers
  calc (builder.layers g).flatten.length
      = ((builder.layers g).map List.length).sum := List.length_flatten
    _ ≤ ((builder.layers g).map List.length).length • levelLimit := List.sum_le_card_nsmul _ _ hle
    _ = g.tileCount * levelLimit := by
      rw [layers_eq, List.length_map, List.length_map, Grid.length_cells, smul_eq_mul]

/-- The board is packed from the levels of the builder, tile by tile. -/
structure WellPacked (builder : Builder) (b : Board) : Prop where
  payloadSize : b.payloadSize = builder.config.payloadSize
  tilesSize : b.tiles.size = b.grid.tileCount
  dataSize : b.data.size = b.levels.size
  /-- The run of a tile starts where the runs of the tiles before it end. -/
  first : ∀ (k : Nat) (tile : Tile), b.tiles[k]? = some tile →
    tile.first = ((b.tiles.toList.take k).map Tile.count).sum
  total : (b.tiles.toList.map Tile.count).sum = b.levels.size
  disjointRuns : b.DisjointRuns
  covered : ∀ i < b.levels.size, ∃ c tile position, b.tile? c = some tile ∧
    position < tile.count ∧ i = tile.first + position
  dataIndex : ∀ (i : Nat) (level : Level), b.levels[i]? = some level →
    level.dataIndex.toNat = i
  /-- The tile of a cell has the levels that were made for the cell. -/
  count : ∀ (c : Cell) (tile : Tile), b.tile? c = some tile →
    tile.count = (builder.levelsAt b.grid c).length ∧ tile.count ≤ levelLimit
  level : ∀ (c : Cell) (tile : Tile) (position : Nat), b.tile? c = some tile →
    position < tile.count → ∃ layer level data,
      (builder.levelsAt b.grid c)[position]? = some layer ∧
      b.levels[tile.first + position]? = some level ∧
      level = layer.record (tile.first + position) ∧
      b.data[tile.first + position]? = some data ∧
      data.payload.length = b.payloadSize.toNat ∧
      data.header.Describes level.ceiling position builder.solids.size

/-- A build with a grid succeeds if its levels can be counted in 32 bits, and its
board is well packed. -/
theorem build_well_packed {builder : Builder} {g : Grid} (hgrid : builder.grid = .ok g)
    (hlevels : (builder.layers g).flatten.length < UInt32.size) :
    ∃ b, builder.build = .ok b ∧ b.grid = g ∧ builder.WellPacked b := by
  obtain ⟨b, hbuild, -⟩ := exists_build hgrid hlevels
  obtain ⟨g', hgrid', hconsistent, rfl⟩ := build_eq_ok_iff.mp hbuild
  cases hgrid.symm.trans hgrid'
  have hpacked := Packing.holds_ofTiles builder.solids builder.config.payloadSize.toNat
    (builder.layers g)
  -- From here on the packed arrays matter through what `Holds` says of them.
  generalize Packing.ofTiles builder.solids builder.config.payloadSize.toNat (builder.layers g)
    = p at hpacked hbuild hconsistent
  refine ⟨_, hbuild, rfl, ?_⟩
  refine
    { payloadSize := rfl
      tilesSize := hconsistent.tileCount
      dataSize := hpacked.dataSize.trans hpacked.levelsSize.symm
      first := fun k tile hk => hpacked.first_eq hlevels hk
      total := ?_
      disjointRuns := fun j k s t hs ht hjk x hx y hy => hpacked.ne_of_ne hlevels hs ht hjk hx hy
      covered := ?_
      dataIndex := fun i level hlevel => hpacked.toNat_dataIndex hlevels hlevel
      count := ?_
      level := ?_ }
  · rw [hpacked.map_count (Packing.Holds.length_lt_of_mem hlevels), ← List.length_flatten]
    exact hpacked.levelsSize.symm
  · intro i hi
    obtain ⟨k, tile, position, hk, hposition, hplace⟩ := hpacked.exists_position hlevels hi
    obtain ⟨c, hc, rfl⟩ := Grid.exists_tileIndex (g := g)
      (hconsistent.tileCount ▸ (Array.getElem?_eq_some_iff.mp hk).1)
    exact ⟨c, tile, position, (if_pos hc).trans hk, hposition, hplace⟩
  · intro c tile htile
    obtain ⟨hc, htile⟩ := Board.tile?_eq_some_iff.mp htile
    obtain ⟨layers, hlayers, -, hcount⟩ := hpacked.run hlevels htile
    cases (builder.getElem?_layers hc).symm.trans hlayers
    exact ⟨hcount, hcount ▸ builder.length_levelsAt_le g c⟩
  · intro c tile position htile hposition
    obtain ⟨hc, htile⟩ := Board.tile?_eq_some_iff.mp htile
    obtain ⟨layer, hlayer, hrecord, hdata⟩ :=
      hpacked.at_position hlevels htile (builder.getElem?_layers hc) hposition
    refine ⟨layer, _, _, hlayer, hrecord, rfl, hdata, length_resizedPayload .., ?_⟩
    -- The position fits its field, since a tile has few levels.
    refine describes_header (List.mem_of_getElem? hlayer) _ ?_
    have hlt : position < (builder.levelsAt g c).length :=
      (List.getElem?_eq_some_iff.mp hlayer).1
    exact Nat.lt_of_lt_of_le hlt (Nat.le_trans (builder.length_levelsAt_le g c) (by decide))

/-- Every level of a cell has its record on a built board. -/
theorem exists_level_of_build {builder : Builder} {b : Board} (h : builder.build = .ok b)
    {c : Cell} (hc : b.grid.contains c = true) {i : Nat} {layer : Layer}
    (hlayer : (builder.levelsAt b.grid c)[i]? = some layer) :
    ∃ k, b.levels[k]? = some (layer.record k) := by
  obtain ⟨g, -, -, rfl⟩ := build_eq_ok_iff.mp h
  have hpacked := Packing.holds_ofTiles builder.solids builder.config.payloadSize.toNat
    (builder.layers g)
  exact ⟨_, (hpacked.level (builder.getElem?_layers hc) hlayer).1⟩

/-- Every level of a built board is that of a level of a cell, and has its data. -/
theorem exists_layer_of_build {builder : Builder} {b : Board} (h : builder.build = .ok b) {k : Nat}
    {l : Level} (hl : b.levels[k]? = some l) :
    ∃ (c : Cell) (i : Nat) (layer : Layer), b.grid.contains c = true ∧
      (builder.levelsAt b.grid c)[i]? = some layer ∧ l = layer.record k ∧
      b.data[k]? = some (layer.levelData builder.solids b.payloadSize.toNat i) := by
  obtain ⟨g, -, -, rfl⟩ := build_eq_ok_iff.mp h
  have hpacked := Packing.holds_ofTiles builder.solids builder.config.payloadSize.toNat
    (builder.layers g)
  have hk := (Array.getElem?_eq_some_iff.mp hl).1
  obtain ⟨tile, layers, i, hlayers, hi, rfl⟩ := Packing.exists_place (hpacked.levelsSize ▸ hk)
  have hlayer := List.getElem?_eq_getElem hi
  obtain ⟨hlevel, hdata⟩ := hpacked.level hlayers hlayer
  cases hlevel.symm.trans hl
  rw [layers_eq, List.getElem?_map, Option.map_eq_some_iff] at hlayers
  obtain ⟨c, hc, rfl⟩ := hlayers
  exact ⟨c, i, _, Grid.mem_cells_iff.mp (List.mem_of_getElem? hc), hlayer, rfl, hdata⟩

/-- The shelf is built, with no more levels than one tile can have. -/
theorem shelf_well_packed : shelf.grid = .ok shelfGrid ∧
    (shelf.layers shelfGrid).flatten.length < UInt32.size ∧
    ∃ b, shelf.build = .ok b ∧ b.grid = shelfGrid ∧ shelf.WellPacked b := by
  have hgrid : shelf.grid = .ok shelfGrid := by decide
  have hlevels : (shelf.layers shelfGrid).flatten.length < UInt32.size :=
    Nat.lt_of_le_of_lt (shelf.length_layers_le shelfGrid) (by decide)
  exact ⟨hgrid, hlevels, build_well_packed hgrid hlevels⟩

end Builder

end Battlemap
