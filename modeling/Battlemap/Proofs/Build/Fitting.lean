import Battlemap.Proofs.Build.Packing
import Battlemap.Proofs.Build.Registration

/-!
# `Battlemap.Proofs.Build.Fitting`: where the levels of a build start

`Builder.startAt` is the height at which a level of a tile starts, read off
the smoothed floors of its level index and the lowest floor of its tile.
Fitting gives each level that height (`Builder.getElem?_fittedAt`), the structure
leaves it as it is, and so it is the base height of the packed record:
`Builder.start_of_build`.

`Builder.levelsAt` are the levels of a cell with their structure. A build packs
those of the cells of its grid in order (`Builder.layers_eq`).
-/

set_option autoImplicit false

namespace Battlemap

/-- What an array over the numbers below `n` has at a place is what the place was mapped to. -/
theorem eq_of_getElem?_map_range {α : Type} {f : Nat → α} {n i : Nat} {a : α}
    (h : ((Array.range n).map f).toList[i]? = some a) : a = f i := by
  rw [Array.getElem?_toList, Array.getElem?_map, Option.map_eq_some_iff] at h
  obtain ⟨j, hj, rfl⟩ := h
  rw [Array.getElem?_range] at hj
  split at hj
  case isTrue => rw [Option.some.inj hj]
  case isFalse => cases hj

namespace Layer

/-- The level between two sides, or the slab that stands for it. -/
def fitted (floor ceiling : LayerSide) (statistics : LayerStatistics) : Layer :=
  let low := lowest floor statistics
  let high := highest ceiling statistics
  if isDegenerate low high then slab low floor.solid ceiling.solid
  else between floor ceiling low high

section

variable (floor ceiling : LayerSide) (statistics : LayerStatistics)

/-- What holds of the slab and of the level between the sides holds of what is fitted. -/
theorem fitted_cases {P : Layer → Prop}
    (hslab : P (slab (lowest floor statistics) floor.solid ceiling.solid))
    (hbetween : P (between floor ceiling (lowest floor statistics) (highest ceiling statistics))) :
    P (fitted floor ceiling statistics) := by
  unfold fitted
  dsimp only
  split
  case isTrue => exact hslab
  case isFalse => exact hbetween

/-- A fitted level starts at its lowest floor. -/
@[simp] theorem baseHeight_fitted :
    (fitted floor ceiling statistics).baseHeight = lowest floor statistics :=
  fitted_cases (P := (·.baseHeight = _)) _ _ _ rfl rfl

/-- The floor of a fitted level belongs to the solid of its lower side. -/
@[simp] theorem floorSolid_fitted :
    (fitted floor ceiling statistics).floorSolid = floor.solid :=
  fitted_cases (P := (·.floorSolid = _)) _ _ _ rfl rfl

/-- The ceiling of a fitted level belongs to the solid of its upper side. -/
@[simp] theorem ceilingSolid_fitted :
    (fitted floor ceiling statistics).ceilingSolid = ceiling.solid :=
  fitted_cases (P := (·.ceilingSolid = _)) _ _ _ rfl rfl

/-- Fitting does not look for the destructible solids in a level. -/
@[simp] theorem destructibles_fitted :
    (fitted floor ceiling statistics).destructibles = [] :=
  fitted_cases (P := (·.destructibles = _)) _ _ _ rfl rfl

/-- Fitting leaves the structure of a level open. -/
@[simp] theorem structural_fitted : (fitted floor ceiling statistics).structural = none :=
  fitted_cases (P := (·.structural = _)) _ _ _ rfl rfl

end

/-- Each level of a stack is fitted between the two sides of its view, and starts at a finite
height. -/
theorem getElem?_stack {views : List LayerView} {i : Nat} {layer : Layer}
    (h : (stack views)[i]? = some layer) :
    ∃ view, views[i]? = some view ∧ (lowest view.floor view.statistics).isFinite = true ∧
      layer = fitted view.floor view.ceiling view.statistics := by
  induction views generalizing i with
  | nil => simp [stack] at h
  | cons view rest ih =>
    rw [stack] at h
    split at h
    case isTrue => simp at h
    case isFalse hfinite =>
      rw [Bool.not_eq_true', Bool.not_eq_false] at hfinite
      split at h
      case isTrue hslab =>
        -- A slab is the last level.
        cases i with
        | zero =>
          cases h
          exact ⟨view, rfl, hfinite, (if_pos hslab).symm⟩
        | succ i => cases h
      case isFalse hthick =>
        cases i with
        | zero =>
          cases h
          exact ⟨view, rfl, hfinite, (if_neg hthick).symm⟩
        | succ i => exact ih h

/-- At most as many levels are stacked as there are views on them. -/
theorem length_stack_le (views : List LayerView) : (stack views).length ≤ views.length := by
  induction views with
  | nil => exact Nat.le_refl 0
  | cons view rest ih =>
    rw [stack]
    split
    case isTrue => exact Nat.zero_le _
    case isFalse =>
      split
      case isTrue => exact Nat.succ_le_succ (Nat.zero_le _)
      case isFalse => exact Nat.succ_le_succ ih

/-- Each level of a tile is fitted between the sides that it has there, and starts at a finite
height. -/
theorem getElem?_fitAll {c : Cell} {tileSize : Single}
    {sides : List (LayerField × LayerStatistics)} {i : Nat} {layer : Layer}
    (h : (fitAll c tileSize sides)[i]? = some layer) :
    ∃ field statistics, sides[i]? = some (field, statistics) ∧
      let floor := LayerSide.of field.floor c tileSize statistics.floor
      let ceiling := LayerSide.of field.ceiling c tileSize statistics.ceiling
      (lowest floor statistics).isFinite = true ∧ layer = fitted floor ceiling statistics := by
  obtain ⟨view, hview, hlayer⟩ := getElem?_stack h
  rw [List.getElem?_map, Option.map_eq_some_iff] at hview
  obtain ⟨⟨field, statistics⟩, hside, rfl⟩ := hview
  exact ⟨field, statistics, hside, hlayer⟩

/-- A tile gets at most as many levels as its rays have. -/
theorem length_fitAll_le (c : Cell) (tileSize : Single)
    (sides : List (LayerField × LayerStatistics)) :
    (fitAll c tileSize sides).length ≤ sides.length :=
  (length_stack_le _).trans_eq (List.length_map _)

end Layer

namespace SampledTile

/-- A tile keeps its solids, also where sampling fails. -/
theorem bin_of (solids : Array Solid) (g : Grid) (start : Single) (bin : TileBin) :
    (SampledTile.of solids g start bin).bin = bin := by
  unfold SampledTile.of
  split
  · rfl
  · dsimp only
    split <;> rfl

/-- The rays of a tile have at most as many levels as are allowed; with more it counts as not
sampled. -/
theorem layerCount_le (solids : Array Solid) (g : Grid) (start : Single) (bin : TileBin) :
    (SampledTile.of solids g start bin).layerCount ≤ levelLimit := by
  unfold SampledTile.of
  split
  case h_1 => exact Nat.zero_le _
  case h_2 =>
    dsimp only
    split
    case isTrue => exact Nat.zero_le _
    case isFalse hle => exact Nat.not_lt.mp hle

end SampledTile

namespace Builder

/-- The solids near a cell. -/
def binAt (builder : Builder) (g : Grid) (c : Cell) : TileBin :=
  .of (builder.solids.toList.zipIdx.map fun (solid, index) => SolidReach.of g solid index) c

/-- The sampled tile at a cell. -/
def sampledAt (builder : Builder) (g : Grid) (c : Cell) : SampledTile :=
  .of builder.solids g builder.config.minRayHeight (builder.binAt g c)

/-- The sampled tile at a cell with its statistics. -/
def measuredAt (builder : Builder) (g : Grid) (c : Cell) : MeasuredTile :=
  (builder.sampledAt g c).measured builder.config.minNormalY

/-- The sampled tiles of a grid with their statistics. -/
def measured (builder : Builder) (g : Grid) : Array MeasuredTile :=
  (g.cells.map (builder.measuredAt g)).toArray

/-- The fields of a level index. -/
def layerField (builder : Builder) (g : Grid) (i : Nat) : LayerField :=
  .of builder.config.minNormalY (builder.measured g) g i

/-- The levels that are fitted in a tile. -/
def fittedAt (builder : Builder) (g : Grid) (c : Cell) : List Layer :=
  Layer.fitAll c g.tileSize
    ((layerFields builder.config.minNormalY g (builder.measured g)).toList.zip
      (builder.measuredAt g c).layers.toList)

/-- The height at which a level of a tile starts. -/
def startAt (builder : Builder) (g : Grid) (c : Cell) (i : Nat) : Single :=
  let statistics := LayerStatistics.of builder.config.minNormalY (builder.sampledAt g c) i
  Layer.lowest (.of (builder.layerField g i).floor c g.tileSize statistics.floor) statistics

/-- The structure of the solids, given the tiles that they share. -/
def structures (builder : Builder) (g : Grid) : Array LayerStructure :=
  solidStructures builder.solids (g.cells.map (builder.binAt g))

/-- The levels of a tile, with their structure. -/
def levelsAt (builder : Builder) (g : Grid) (c : Cell) : List Layer :=
  (builder.fittedAt g c).map fun layer =>
    layer.baked g (builder.structures g) (builder.binAt g c)

/-- A sampled tile keeps its bin. -/
theorem bin_sampledAt (builder : Builder) (g : Grid) (c : Cell) :
    (builder.sampledAt g c).bin = builder.binAt g c :=
  SampledTile.bin_of ..

/-- The levels of a build are those fitted in its tiles, with their structure. -/
theorem layers_eq (builder : Builder) (g : Grid) :
    builder.layers g = g.cells.map (builder.levelsAt g) := by
  have hsampled : (binSolids builder.solids g).map
      (SampledTile.of builder.solids g builder.config.minRayHeight)
      = (g.cells.map (builder.sampledAt g)).toArray := by
    rw [binSolids_eq, List.map_toArray, List.map_map]
    rfl
  have hmeasured : ((g.cells.map (builder.sampledAt g)).toArray.map fun tile =>
      tile.measured builder.config.minNormalY) = builder.measured g := by
    simp only [measured, List.map_toArray, List.map_map]
    rfl
  have hbin (c : Cell) : (builder.measuredAt g c).sampled.bin = builder.binAt g c :=
    builder.bin_sampledAt g c
  have hcell (c : Cell) : (builder.binAt g c).cell = c := rfl
  -- All three passes over the tiles keep their order, row by row.
  unfold layers
  dsimp only
  rw [hsampled, fitLayers, hmeasured, bakeStructure, measured]
  simp only [List.map_toArray, List.map_map, Function.comp_def, FittedTile.baked, FittedTile.bin,
    FittedTile.sampled, hbin, hcell]
  rfl

/-- A level of a tile is fitted between the sides that the fields of its index have there. -/
theorem getElem?_fittedAt {builder : Builder} {g : Grid} {c : Cell} {i : Nat} {layer : Layer}
    (h : (builder.fittedAt g c)[i]? = some layer) :
    let statistics := LayerStatistics.of builder.config.minNormalY (builder.sampledAt g c) i
    (builder.startAt g c i).isFinite = true ∧
      layer = .fitted (.of (builder.layerField g i).floor c g.tileSize statistics.floor)
        (.of (builder.layerField g i).ceiling c g.tileSize statistics.ceiling) statistics := by
  obtain ⟨field, statistics, hsides, hlayer⟩ := Layer.getElem?_fitAll h
  obtain ⟨hfield, hstatistics⟩ := List.getElem?_zip_eq_some.mp hsides
  cases eq_of_getElem?_map_range hfield
  cases eq_of_getElem?_map_range hstatistics
  exact hlayer

/-- The levels of a cell are packed as those of its tile. -/
theorem getElem?_layers (builder : Builder) {g : Grid} {c : Cell} (hc : g.contains c = true) :
    (builder.layers g)[g.tileIndex c]? = some (builder.levelsAt g c) := by
  rw [layers_eq, List.getElem?_map, Grid.getElem?_cells hc, Option.map_some]

/-- The levels of a tile start where they should. -/
theorem layers_at (builder : Builder) {g : Grid} {c : Cell} (hc : g.contains c = true) :
    ∃ layers, (builder.layers g)[g.tileIndex c]? = some layers ∧
      layers.length = (builder.fittedAt g c).length ∧
      ∀ {i : Nat} {layer : Layer}, layers[i]? = some layer →
        layer.baseHeight = builder.startAt g c i := by
  refine ⟨_, builder.getElem?_layers hc, List.length_map _, fun {i layer} hlayer => ?_⟩
  rw [levelsAt, List.getElem?_map, Option.map_eq_some_iff] at hlayer
  obtain ⟨fitted, hfitted, rfl⟩ := hlayer
  -- Structure leaves the base height alone.
  obtain ⟨-, rfl⟩ := getElem?_fittedAt hfitted
  exact Layer.baseHeight_fitted ..

/-- A tile has no more levels than it was sampled for. -/
theorem length_fittedAt_le_layerCount (builder : Builder) (g : Grid) (c : Cell) :
    (builder.fittedAt g c).length ≤ (builder.sampledAt g c).layerCount := by
  calc (builder.fittedAt g c).length
      ≤ (builder.measuredAt g c).layers.toList.length := by
        refine Nat.le_trans (Layer.length_fitAll_le ..) ?_
        rw [List.length_zip]
        exact Nat.min_le_right _ _
    _ = (builder.sampledAt g c).layerCount := by simp [measuredAt, SampledTile.measured]

/-- No tile has more levels than a tile can have. -/
theorem length_fittedAt_le (builder : Builder) (g : Grid) (c : Cell) :
    (builder.fittedAt g c).length ≤ levelLimit :=
  (builder.length_fittedAt_le_layerCount g c).trans (SampledTile.layerCount_le ..)

/-- A tile of a build has at most as many levels as are allowed. -/
theorem length_levelsAt_le (builder : Builder) (g : Grid) (c : Cell) :
    (builder.levelsAt g c).length ≤ levelLimit :=
  (List.length_map _).trans_le (builder.length_fittedAt_le g c)

/-- No tile of a build has more levels than are allowed. -/
theorem length_le_of_mem_layers {builder : Builder} {g : Grid} {layers : List Layer}
    (h : layers ∈ builder.layers g) : layers.length ≤ levelLimit := by
  rw [layers_eq] at h
  obtain ⟨c, -, rfl⟩ := List.mem_map.mp h
  exact builder.length_levelsAt_le g c

/-- A build with a grid succeeds if its levels can be counted in 32 bits. -/
theorem exists_build {builder : Builder} {g : Grid} (h : builder.grid = .ok g)
    (hlevels : (builder.layers g).flatten.length < UInt32.size) :
    ∃ b, builder.build = .ok b ∧ b.grid = g ∧
      b.levels.size = (builder.layers g).flatten.length := by
  have hpacked := Packing.holds_ofTiles builder.solids builder.config.payloadSize.toNat
    (builder.layers g)
  have hconsistent := hpacked.consistent (g := g) builder.config.payloadSize
    (by rw [layers_eq, List.length_map, Grid.length_cells])
    (fun layers hmem => Nat.lt_of_le_of_lt (length_le_of_mem_layers hmem) (by decide)) hlevels
  exact ⟨_, build_eq_ok_iff.mpr ⟨g, h, hconsistent, rfl⟩, rfl, hpacked.levelsSize⟩

/-- A tile of a built board counts the levels that were fitted in it. -/
theorem tile_of_build {builder : Builder} {b : Board} (h : builder.build = .ok b) {c : Cell}
    (hc : b.grid.contains c = true) :
    ∃ tile, b.tile? c = some tile ∧ tile.count = (builder.fittedAt b.grid c).length := by
  obtain ⟨g, -, -, rfl⟩ := build_eq_ok_iff.mp h
  have hpacked := Packing.holds_ofTiles builder.solids builder.config.payloadSize.toNat
    (builder.layers g)
  obtain ⟨layers, hlayers, hlength, -⟩ := builder.layers_at hc
  refine ⟨_, (if_pos hc).trans (hpacked.tile hlayers), ?_⟩
  have hle := builder.length_fittedAt_le g c
  rw [← hlength] at hle ⊢
  exact UInt32.toNat_ofNat_of_lt' (Nat.lt_of_le_of_lt hle (by decide))

/-- The base height of a level on a built board is the height at which the
level of its tile starts. -/
theorem start_of_build {builder : Builder} {b : Board} (h : builder.build = .ok b)
    (hlevels : b.levels.size ≤ UInt32.size) {c : Cell} {tile : Tile} (htile : b.tile? c = some tile)
    {i : Nat} (hi : i < tile.count) :
    ∃ l, b.levels[tile.first + i]? = some l ∧ l.baseHeight = builder.startAt b.grid c i := by
  obtain ⟨g, -, -, rfl⟩ := build_eq_ok_iff.mp h
  have hpacked := Packing.holds_ofTiles builder.solids builder.config.payloadSize.toNat
    (builder.layers g)
  rw [Board.tile?_eq_some_iff] at htile
  obtain ⟨hc, htile⟩ := htile
  obtain ⟨layers, hlayers, -, hstart⟩ := builder.layers_at hc
  cases (hpacked.tile hlayers).symm.trans htile
  have hlength : i < layers.length := by
    refine Nat.lt_of_lt_of_le hi ?_
    rw [Tile.count, UInt32.toNat_ofNat']
    exact Nat.mod_le _ _
  have hlevel := (hpacked.level hlayers (List.getElem?_eq_getElem hlength)).1
  -- The start of the run does not wrap.
  have hfirst : Tile.first ⟨layers.length.toUInt32,
      (Packing.levelsBefore (builder.layers g) (g.tileIndex c)).toUInt32⟩
      = Packing.levelsBefore (builder.layers g) (g.tileIndex c) := by
    have hlt := (Array.getElem?_eq_some_iff.mp hlevel).1
    refine UInt32.toNat_ofNat_of_lt' (Nat.lt_of_le_of_lt (Nat.le_add_right _ i) ?_)
    exact Nat.lt_of_lt_of_le hlt hlevels
  exact ⟨_, by rw [hfirst]; exact hlevel, hstart (List.getElem?_eq_getElem hlength)⟩

end Builder

end Battlemap
