import Battlemap.Proofs.Build.Fitting
import Battlemap.Proofs.Build.RayOrder
import Battlemap.Proofs.Build.Smoothing

/-!
# `Battlemap.Proofs.Build.Refit`: fitting in place, with every index checked

Fitting reads and writes buffers for the whole map: the accepted heights of a level index
stand in rows across all tiles. The passes below do this with every index checked. Tile by
tile, ray by ray, they write each height to its place, read the windows of all places, and
read the heights of each tile back. They give no answer if any place is missing. The tiles
they are given may have been fitted before, and none of what was fitted is read.

On the sampled tiles of a grid no place is missing. The rays of a tile stand at places of the
map (`exists_ray`, `HeightField.rayPlace_lt`), a pass that writes to existing places succeeds
and changes no other ones (`Written.foldlM`), and so each pass comes to what fitting has at
every place (`LayerField.rawSide?_eq`, `HeightField.smoothed?_eq`, `MeasuredTile.fit?_eq`).
`refit?_eq` is this for all passes together.
-/

set_option autoImplicit false

namespace Battlemap

/-! ### The tiles of a grid -/

/-- The sampled tiles of a grid, row by row. Each tile has all its rays, or it has none and
no levels. -/
structure Grid.Sampled (g : Grid) (tiles : Array SampledTile) : Prop where
  cells : (tiles.toList.map fun tile => tile.bin.cell) = g.cells
  rays : ∀ tile ∈ tiles, tile.rays.size = raysPerTile ∨ tile.rays.size = 0 ∧ tile.layerCount = 0

namespace Grid.Sampled

/-- Such tiles are what sampling the solids near every cell gives. -/
theorem of_binSolids (solids : Array Solid) (g : Grid) (start : Single) :
    g.Sampled ((binSolids solids g).map (SampledTile.of solids g start)) := by
  constructor
  · simp only [Array.toList_map, List.map_map, Function.comp_def, SampledTile.bin_of, binSolids_eq]
    exact List.map_id _
  · intro tile htile
    obtain ⟨bin, -, rfl⟩ := Array.mem_map.mp htile
    exact SampledTile.size_rays_of solids g start bin

variable {g : Grid} {tiles : Array SampledTile}

/-- Every cell has its tile. -/
theorem tile_at (h : g.Sampled tiles) {c : Cell} (hc : g.contains c = true) :
    ∃ tile, tiles[g.tileIndex c]? = some tile ∧ tile.bin.cell = c := by
  have hcell := getElem?_cells hc
  rwa [← h.cells, List.getElem?_map, Array.getElem?_toList, Option.map_eq_some_iff] at hcell

/-- Every tile is that of its cell. -/
theorem getElem?_tileIndex (h : g.Sampled tiles) {tile : SampledTile} (htile : tile ∈ tiles) :
    g.contains tile.bin.cell = true ∧ tiles[g.tileIndex tile.bin.cell]? = some tile := by
  obtain ⟨i, hi⟩ := List.mem_iff_getElem?.mp (Array.mem_toList_iff.mpr htile)
  have hcell : g.cells[i]? = some tile.bin.cell := by
    rw [← h.cells, List.getElem?_map, hi, Option.map_some]
  -- The place of the tile is that of some cell, and so of its own.
  have hlt : i < g.tileCount := length_cells g ▸ (List.getElem?_eq_some_iff.mp hcell).1
  obtain ⟨c, hc, rfl⟩ := exists_tileIndex hlt
  obtain rfl : c = tile.bin.cell := Option.some.inj ((getElem?_cells hc).symm.trans hcell)
  exact ⟨hc, Array.getElem?_toList ▸ hi⟩

end Grid.Sampled

/-- Every place of the map is that of a ray. -/
theorem exists_ray {g : Grid} {row column : Nat} (hrow : row < g.height.toNat * raysPerAxis)
    (hcolumn : column < g.width.toNat * raysPerAxis) :
    ∃ c, g.contains c = true ∧ ∃ n < raysPerTile,
      row = c.z.toNat * raysPerAxis + n / raysPerAxis ∧
        column = c.x.toNat * raysPerAxis + n % raysPerAxis := by
  have hz : row / raysPerAxis < g.height.toNat := Nat.div_lt_of_lt_mul (Nat.mul_comm .. ▸ hrow)
  have hx : column / raysPerAxis < g.width.toNat :=
    Nat.div_lt_of_lt_mul (Nat.mul_comm .. ▸ hcolumn)
  obtain ⟨c, hc, hcz, hcx⟩ : ∃ c, g.contains c = true ∧ c.z.toNat = row / raysPerAxis ∧
      c.x.toNat = column / raysPerAxis := by
    obtain ⟨hplace, hdiv, hmod⟩ := HeightField.place_div_mod hz hx
    obtain ⟨c, hc, hindex⟩ := Grid.exists_tileIndex hplace
    obtain ⟨-, hdiv', hmod'⟩ := HeightField.place_div_mod (Grid.contains_iff.mp hc).2
      (Grid.contains_iff.mp hc).1
    rw [Grid.tileIndex] at hindex
    exact ⟨c, hc, by rw [← hdiv', hindex, hdiv], by rw [← hmod', hindex, hmod]⟩
  obtain ⟨hn, hdiv, hmod⟩ := HeightField.place_div_mod
    (Nat.mod_lt row (by decide : 0 < raysPerAxis)) (Nat.mod_lt column (by decide : 0 < raysPerAxis))
  exact ⟨c, hc, _, hn, by rw [hdiv, hcz, Nat.div_add_mod'], by rw [hmod, hcx, Nat.div_add_mod']⟩

/-! ### Writing a side of a level index -/

namespace HeightField

/-- The samples with a new one at a place, if they have the place. -/
def write? (samples : Array FieldSample) (place : Nat) (sample : FieldSample) :
    Option (Array FieldSample) :=
  if h : place < samples.size then some (samples.set place sample h) else none

/-- The samples after some places got what `target` has there. -/
structure Written (target : Nat → FieldSample) (places : Nat → Prop)
    (before after : Array FieldSample) : Prop where
  size : after.size = before.size
  new : ∀ p, places p → after[p]? = some (target p)
  old : ∀ p, ¬ places p → after[p]? = before[p]?

/-- Writing to a place that is there sets that place and no other one. -/
theorem written_write? {target : Nat → FieldSample} {before : Array FieldSample} {place : Nat}
    (h : place < before.size) :
    ∃ after, write? before place (target place) = some after ∧
      Written target (· = place) before after := by
  refine ⟨_, dif_pos h, Array.size_set h, ?_, fun p hp => ?_⟩
  · rintro p rfl
    exact Array.getElem?_set_self h
  · exact Array.getElem?_set_ne h (Ne.symm hp)

/-- Which places were written is a matter of the places, not of how they are described. -/
theorem Written.congr {target : Nat → FieldSample} {places places' : Nat → Prop}
    {before after : Array FieldSample} (h : Written target places before after)
    (hplaces : ∀ p, places p ↔ places' p) : Written target places' before after where
  size := h.size
  new p hp := h.new p ((hplaces p).mpr hp)
  old p hp := h.old p fun hp' => hp ((hplaces p).mp hp')

/-- A pass whose steps write their own places writes all of these. -/
theorem Written.foldlM {ι : Type} {target : Nat → FieldSample} (places : ι → Nat → Prop)
    (step : Array FieldSample → ι → Option (Array FieldSample)) {items : List ι} {size : Nat}
    (hstep : ∀ item ∈ items, ∀ before : Array FieldSample, before.size = size →
      ∃ after, step before item = some after ∧ Written target (places item) before after)
    {before : Array FieldSample} (hbefore : before.size = size) :
    ∃ after, items.foldlM step before = some after ∧
      Written target (fun p => ∃ item ∈ items, places item p) before after := by
  induction items generalizing before with
  | nil => exact ⟨before, rfl, rfl, by simp, fun _ _ => rfl⟩
  | cons item items ih =>
    obtain ⟨middle, hmiddle, hfirst⟩ := hstep item List.mem_cons_self before hbefore
    obtain ⟨after, hafter, hrest⟩ :=
      ih (fun other hother => hstep other (List.mem_cons_of_mem _ hother))
        (hfirst.size.trans hbefore)
    refine ⟨after, ?_, hrest.size.trans hfirst.size, fun p hp => ?_, fun p hp => ?_⟩
    · rw [List.foldlM_cons, hmiddle]
      exact hafter
    · -- A later step that writes the place again writes the same.
      by_cases hagain : ∃ item ∈ items, places item p
      · exact hrest.new p hagain
      · have hitem : places item p := by simpa [hagain] using hp
        rw [hrest.old p hagain, hfirst.new p hitem]
    · have hnot : ¬ places item p ∧ ¬ ∃ item ∈ items, places item p := by simpa using hp
      rw [hrest.old p hnot.2, hfirst.old p hnot.1]

end HeightField

namespace LayerField

/-- The place of a ray of a tile in the rows of the map. -/
def rayPlace (g : Grid) (c : Cell) (n : Nat) : Nat :=
  (c.z.toNat * raysPerAxis + n / raysPerAxis) * (g.width.toNat * raysPerAxis)
    + (c.x.toNat * raysPerAxis + n % raysPerAxis)

/-- Write the samples of a tile that has the level to the places of its rays. -/
def writeTile? (minNormalY : Single) (g : Grid) (layer slot : Nat)
    (side : LayerStatistics → SideStatistics) (samples : Array FieldSample)
    (tile : MeasuredTile) : Option (Array FieldSample) :=
  if layer < tile.sampled.layerCount then
    tile.layers[layer]?.bind fun statistics =>
      tile.sampled.rays.toList.zipIdx.foldlM
        (fun samples (ray, n) =>
          HeightField.write? samples (rayPlace g tile.sampled.bin.cell n)
            (.of minNormalY (side statistics) ray[slot]?))
        samples
  else some samples

/-- A side of a level index, written tile by tile. -/
def rawSide? (minNormalY : Single) (tiles : Array MeasuredTile) (g : Grid) (layer slot : Nat)
    (side : LayerStatistics → SideStatistics) : Option HeightField :=
  let columns := g.width.toNat * raysPerAxis
  let rows := g.height.toNat * raysPerAxis
  (tiles.toList.foldlM (writeTile? minNormalY g layer slot side)
    (Array.replicate (columns * rows) .absent)).map fun samples => ⟨columns, rows, samples⟩

/-- The place of a ray of a tile is a place of the map. -/
theorem rayPlace_div_mod {g : Grid} {c : Cell} (hc : g.contains c = true) {n : Nat}
    (hn : n < raysPerTile) :
    rayPlace g c n < g.width.toNat * raysPerAxis * (g.height.toNat * raysPerAxis) ∧
      rayPlace g c n / (g.width.toNat * raysPerAxis)
        = c.z.toNat * raysPerAxis + n / raysPerAxis ∧
      rayPlace g c n % (g.width.toNat * raysPerAxis)
        = c.x.toNat * raysPerAxis + n % raysPerAxis := by
  obtain ⟨hx, hz⟩ := Grid.contains_iff.mp hc
  obtain ⟨hrow, hcolumn⟩ := HeightField.rayPlace_lt (c := c)
    (Nat.mul_le_mul_right raysPerAxis hz) (Nat.mul_le_mul_right raysPerAxis hx) hn
  exact HeightField.place_div_mod hrow hcolumn

/-- Every place of the map is that of a ray. -/
theorem exists_rayPlace {g : Grid} {p : Nat}
    (hp : p < g.width.toNat * raysPerAxis * (g.height.toNat * raysPerAxis)) :
    ∃ c, g.contains c = true ∧ ∃ n < raysPerTile, p = rayPlace g c n := by
  have hcolumns : 0 < g.width.toNat * raysPerAxis := Nat.pos_of_lt_mul_right hp
  obtain ⟨c, hc, n, hn, hrow, hcolumn⟩ :=
    exists_ray (Nat.div_lt_of_lt_mul hp) (Nat.mod_lt p hcolumns)
  refine ⟨c, hc, n, hn, ?_⟩
  rw [rayPlace, ← hrow, ← hcolumn, Nat.div_add_mod']

/-- The sample at a place of the map. -/
def placeSample (minNormalY : Single) (tiles : Array MeasuredTile) (g : Grid) (layer slot : Nat)
    (side : LayerStatistics → SideStatistics) (p : Nat) : FieldSample :=
  sampleAt minNormalY tiles g layer slot side (p / (g.width.toNat * raysPerAxis))
    (p % (g.width.toNat * raysPerAxis))

section
variable {g : Grid} {tiles : Array SampledTile} (h : g.Sampled tiles) (minNormalY : Single)
  {tile : SampledTile} (htile : tile ∈ tiles) (layer slot : Nat)
  (side : LayerStatistics → SideStatistics)

include h htile

/-- The map has for a ray what the statistics of its tile make of it, if the tile has the
level. -/
theorem sampleAt_ray {n : Nat} (hn : n < raysPerTile) :
    sampleAt minNormalY (tiles.map (·.measured minNormalY)) g layer slot side
        (tile.bin.cell.z.toNat * raysPerAxis + n / raysPerAxis)
        (tile.bin.cell.x.toNat * raysPerAxis + n % raysPerAxis)
      = if layer < tile.layerCount then
          .of minNormalY (side (.of minNormalY tile layer)) (tile.rays[n]?.bind (·[slot]?))
        else .absent := by
  obtain ⟨-, hat⟩ := h.getElem?_tileIndex htile
  obtain ⟨⟨hz, hn'⟩, hx, hn''⟩ :=
    HeightField.ray_div_mod hn tile.bin.cell.z.toNat tile.bin.cell.x.toNat
  have hmeasured : (tiles.map (·.measured minNormalY))[tile.bin.cell.z.toNat * g.width.toNat
      + tile.bin.cell.x.toNat]? = some (tile.measured minNormalY) := by
    rw [Array.getElem?_map]
    exact congrArg (Option.map _) hat
  rw [sampleAt, hz, hx, hn', hn'', hmeasured, Nat.div_add_mod' n raysPerAxis]
  by_cases hlayer : layer < tile.layerCount
  · cases hray : tile.rays[n]? <;> simp [SampledTile.measured, hlayer, hray, FieldSample.of]
  · simp [SampledTile.measured, hlayer]

/-- The place of a ray gets the sample of its tile at that ray, or none if the tile has no such
level. -/
theorem placeSample_rayPlace {n : Nat} (hn : n < raysPerTile) :
    placeSample minNormalY (tiles.map (·.measured minNormalY)) g layer slot side
        (rayPlace g tile.bin.cell n)
      = if layer < tile.layerCount then
          .of minNormalY (side (.of minNormalY tile layer)) (tile.rays[n]?.bind (·[slot]?))
        else .absent := by
  obtain ⟨-, hrow, hcolumn⟩ := rayPlace_div_mod (h.getElem?_tileIndex htile).1 hn
  rw [placeSample, hrow, hcolumn]
  exact sampleAt_ray h minNormalY htile layer slot side hn

/-- A tile that has the level writes the samples of its rays, and no tile writes anything
else. -/
theorem exists_writeTile? {before : Array FieldSample}
    (hsize : before.size = g.width.toNat * raysPerAxis * (g.height.toNat * raysPerAxis)) :
    ∃ after,
      writeTile? minNormalY g layer slot side before (tile.measured minNormalY) = some after ∧
      HeightField.Written
        (placeSample minNormalY (tiles.map (·.measured minNormalY)) g layer slot side)
        (fun p => layer < tile.layerCount ∧ ∃ n < raysPerTile, p = rayPlace g tile.bin.cell n)
        before after := by
  by_cases hlayer : layer < tile.layerCount
  case neg => exact ⟨before, if_neg hlayer, rfl, fun p hp => absurd hp.1 hlayer, fun _ _ => rfl⟩
  have hrays : tile.rays.size = raysPerTile := (h.rays tile htile).resolve_right (by omega)
  -- Each ray writes one place, and what it writes is what the map is to have there.
  have hstep : ∀ item ∈ tile.rays.toList.zipIdx, ∀ samples : Array FieldSample,
      samples.size = g.width.toNat * raysPerAxis * (g.height.toNat * raysPerAxis) →
      ∃ after, HeightField.write? samples (rayPlace g tile.bin.cell item.2)
          (.of minNormalY (side (.of minNormalY tile layer)) item.1[slot]?) = some after ∧
        HeightField.Written
          (placeSample minNormalY (tiles.map (·.measured minNormalY)) g layer slot side)
          (· = rayPlace g tile.bin.cell item.2) samples after := by
    rintro ⟨ray, n⟩ hitem samples hsamples
    have hray : tile.rays[n]? = some ray :=
      Array.getElem?_toList ▸ List.mem_zipIdx_iff_getElem?.mp hitem
    have hn : n < raysPerTile := hrays ▸ (Array.getElem?_eq_some_iff.mp hray).1
    have hsample := placeSample_rayPlace h minNormalY htile layer slot side hn
    rw [if_pos hlayer, hray, Option.bind_some] at hsample
    rw [← hsample]
    have hplace := (rayPlace_div_mod (h.getElem?_tileIndex htile).1 hn).1
    exact HeightField.written_write? (hsamples ▸ hplace)
  obtain ⟨after, hafter, hwritten⟩ := HeightField.Written.foldlM _ _ hstep hsize
  refine ⟨after, ?_, hwritten.congr fun p => ?_⟩
  · have hstatistics : (tile.measured minNormalY).layers[layer]?
        = some (.of minNormalY tile layer) := by simp [SampledTile.measured, hlayer]
    rw [writeTile?, hstatistics]
    exact (if_pos hlayer).trans hafter
  · constructor
    · rintro ⟨⟨ray, n⟩, hitem, hp⟩
      have hlt := (List.getElem?_eq_some_iff.mp (List.mem_zipIdx_iff_getElem?.mp hitem)).1
      rw [Array.length_toList, hrays] at hlt
      exact ⟨hlayer, n, hlt, hp⟩
    · rintro ⟨-, n, hn, hp⟩
      rw [← hrays] at hn
      exact ⟨(tile.rays[n], n), List.mem_zipIdx_iff_getElem?.mpr (by simp [hn]), hp⟩

omit htile

/-- Written tile by tile, a side of a level index is what it is place by place. -/
theorem rawSide?_eq :
    rawSide? minNormalY (tiles.map (·.measured minNormalY)) g layer slot side
      = some (rawSide minNormalY (tiles.map (·.measured minNormalY)) g layer slot side) := by
  let size := g.width.toNat * raysPerAxis * (g.height.toNat * raysPerAxis)
  have hblank : (Array.replicate size FieldSample.absent).size = size := Array.size_replicate
  obtain ⟨after, hafter, hwritten⟩ := HeightField.Written.foldlM _
    (fun samples (tile : SampledTile) =>
      writeTile? minNormalY g layer slot side samples (tile.measured minNormalY))
    (fun tile htile before hbefore =>
      exists_writeTile? h minNormalY (Array.mem_toList_iff.mp htile) layer slot side hbefore)
    hblank
  have hsample : ∀ p < size, after[p]?
      = some (placeSample minNormalY (tiles.map (·.measured minNormalY)) g layer slot side p) := by
    intro p hp
    obtain ⟨c, hc, n, hn, rfl⟩ := exists_rayPlace hp
    obtain ⟨tile, hat, rfl⟩ := h.tile_at hc
    have htile : tile ∈ tiles := Array.mem_of_getElem? hat
    by_cases hwrote : ∃ other ∈ tiles.toList, layer < other.layerCount ∧
        ∃ m < raysPerTile, rayPlace g tile.bin.cell n = rayPlace g other.bin.cell m
    · exact hwritten.new _ hwrote
    · -- A place that nothing was written to is that of a ray whose tile lacks the level.
      have hlayer : ¬ layer < tile.layerCount := fun hlayer =>
        hwrote ⟨tile, Array.mem_toList_iff.mpr htile, hlayer, n, hn, rfl⟩
      rw [hwritten.old _ hwrote, Array.getElem?_replicate, if_pos hp,
        placeSample_rayPlace h minNormalY htile layer slot side hn, if_neg hlayer]
  have hafter' : after = (Array.range size).map
      (placeSample minNormalY (tiles.map (·.measured minNormalY)) g layer slot side) := by
    refine Array.ext_getElem? fun p => ?_
    by_cases hp : p < size
    · simp [hsample p hp, hp]
    · have hnone : after[p]? = none := by simp [hwritten.size, hp]
      simp [hnone, hp]
  rw [rawSide?, Array.toList_map, List.foldlM_map]
  exact (congrArg (Option.map _) hafter).trans (by rw [hafter']; rfl)

end

end LayerField

/-! ### Reading fields -/

namespace HeightField

/-- The sample at a place of the field, if it has the place. -/
def sample? (f : HeightField) (row column : Nat) : Option FieldSample :=
  f.samples[row * f.columns + column]?

/-- The sample at a place after smoothing, if the field has all places of its window. -/
def smoothedAt? (f : HeightField) (place : Nat) : Option FieldSample := do
  let sample ← f.samples[place]?
  -- The window of a sample that is not valid would not be needed; it is there all the same.
  let window ← (placesAround f.rows f.columns (place / f.columns) (place % f.columns)).mapM
    fun p => f.sample? p.1 p.2
  return if sample.valid then { sample with height := average window } else sample

/-- The smoothed field, if it has all its rows. -/
def smoothed? (f : HeightField) : Option HeightField := do
  let samples ← (List.range (f.columns * f.rows)).mapM f.smoothedAt?
  return { f with samples := samples.toArray }

/-- The valid samples of a tile's own rays, if the field has the places of all rays. -/
def samplesOf? (f : HeightField) (c : Cell) : Option (List (Nat × FieldSample)) := do
  let samples ← (List.range raysPerTile).mapM fun n =>
    (f.sample? (c.z.toNat * raysPerAxis + n / raysPerAxis)
      (c.x.toNat * raysPerAxis + n % raysPerAxis)).map (n, ·)
  return samples.filter fun (_, sample) => sample.valid

variable {f : HeightField} (hsize : f.samples.size = f.columns * f.rows)

include hsize

/-- There is a sample at every place of a field. -/
theorem sample?_eq {row column : Nat} (hrow : row < f.rows) (hcolumn : column < f.columns) :
    f.sample? row column = some (f.sample row column) := by
  have hplace := (place_div_mod hrow hcolumn).1
  rw [← hsize] at hplace
  simp [sample?, sample, hplace]

/-- At every place a smoothed sample can be had, since the window never leaves the field. -/
theorem smoothedAt?_eq {place : Nat} (hplace : place < f.columns * f.rows) :
    f.smoothedAt? place = some (f.smoothed.sample (place / f.columns) (place % f.columns)) := by
  have hrow : place / f.columns < f.rows := Nat.div_lt_of_lt_mul hplace
  have hcolumn : place % f.columns < f.columns := Nat.mod_lt _ (Nat.pos_of_lt_mul_right hplace)
  have hsample : f.samples[place]? = some (f.sample (place / f.columns) (place % f.columns)) := by
    simp [sample, Nat.div_add_mod', hsize, hplace]
  have hwindow : (placesAround f.rows f.columns (place / f.columns) (place % f.columns)).mapM
      (fun p => f.sample? p.1 p.2) = some (f.around (place / f.columns) (place % f.columns)) := by
    rw [mapM_eq_some_iff, around_eq, List.map_map]
    refine List.map_congr_left fun p hp => ?_
    obtain ⟨hprow, hpcolumn⟩ := mem_placesAround hrow hcolumn hp
    exact sample?_eq hsize hprow.1 hpcolumn.1
  rw [smoothedAt?, hsample, hwindow, sample_smoothed hsize hrow hcolumn]
  rfl

/-- Every place has a window in the field. -/
theorem smoothed?_eq : f.smoothed? = some f.smoothed := by
  have hsamples : (List.range (f.columns * f.rows)).mapM f.smoothedAt?
      = some ((List.range (f.columns * f.rows)).map fun place =>
        f.smoothed.sample (place / f.columns) (place % f.columns)) := by
    rw [mapM_eq_some_iff, List.map_map]
    exact List.map_congr_left fun place hplace => smoothedAt?_eq hsize (List.mem_range.mp hplace)
  have hall : ((List.range (f.columns * f.rows)).map fun place =>
      f.smoothed.sample (place / f.columns) (place % f.columns)).toArray = f.smoothed.samples := by
    refine Array.ext_getElem? fun place => ?_
    have hcolumns : f.smoothed.columns = f.columns := rfl
    have hsmoothed := f.size_smoothed
    by_cases hplace : place < f.columns * f.rows
    · simp [sample, hcolumns, Nat.div_add_mod', hplace, hsmoothed, hsize]
    · simp [hplace, hsmoothed, hsize]
  rw [smoothed?, hsamples]
  exact congrArg (fun samples => some { f with samples := samples }) hall

/-- A field that covers a tile has the places of its rays. -/
theorem samplesOf?_eq {c : Cell} (hrows : (c.z.toNat + 1) * raysPerAxis ≤ f.rows)
    (hcolumns : (c.x.toNat + 1) * raysPerAxis ≤ f.columns) :
    f.samplesOf? c = some (f.samplesOf c) := by
  have hsamples : ((List.range raysPerTile).mapM fun n =>
      (f.sample? (c.z.toNat * raysPerAxis + n / raysPerAxis)
        (c.x.toNat * raysPerAxis + n % raysPerAxis)).map (n, ·))
      = some ((List.range raysPerTile).map fun n =>
        (n, f.sample (c.z.toNat * raysPerAxis + n / raysPerAxis)
          (c.x.toNat * raysPerAxis + n % raysPerAxis))) := by
    rw [mapM_eq_some_iff, List.map_map]
    refine List.map_congr_left fun n hn => ?_
    obtain ⟨hrow, hcolumn⟩ := rayPlace_lt hrows hcolumns (List.mem_range.mp hn)
    rw [sample?_eq hsize hrow hcolumn]
    rfl
  rw [samplesOf?, hsamples, samplesOf]
  simp [← List.filterMap_eq_filter, List.filterMap_map, Option.guard]

end HeightField

/-- The smoothed fields of a level index, written tile by tile. -/
def LayerField.of? (minNormalY : Single) (tiles : Array MeasuredTile) (g : Grid) (layer : Nat) :
    Option LayerField := do
  let floor ← rawSide? minNormalY tiles g layer (2 * layer) LayerStatistics.floor
  let ceiling ← rawSide? minNormalY tiles g layer (2 * layer + 1) LayerStatistics.ceiling
  return ⟨← floor.smoothed?, ← ceiling.smoothed?⟩

/-- Writing the field of a level ray by ray never misses an index, and gives the field. -/
theorem LayerField.of?_eq {g : Grid} {tiles : Array SampledTile} (h : g.Sampled tiles)
    (minNormalY : Single) (layer : Nat) :
    of? minNormalY (tiles.map (·.measured minNormalY)) g layer
      = some (.of minNormalY (tiles.map (·.measured minNormalY)) g layer) := by
  rw [of?, rawSide?_eq h, rawSide?_eq h]
  simp only [Option.bind_eq_bind, Option.bind_some, HeightField.smoothed?_eq (size_rawSide ..)]
  rfl

/-! ### Fitting a tile -/

/-- Both sides of a level of a tile, if the field has the places of its rays. -/
def LayerView.of? (c : Cell) (tileSize : Single) (field : LayerField)
    (statistics : LayerStatistics) : Option LayerView := do
  let floor ← field.floor.samplesOf? c
  let ceiling ← field.ceiling.samplesOf? c
  return ⟨.ofSamples floor tileSize statistics.floor,
    .ofSamples ceiling tileSize statistics.ceiling, statistics⟩

/-- Reading the rays of a tile from a field never misses an index, and gives the view of the
tile. -/
theorem LayerView.of?_eq {g : Grid} {c : Cell} (hc : g.contains c = true) (minNormalY : Single)
    (tiles : Array MeasuredTile) (layer : Nat) (statistics : LayerStatistics) :
    of? c g.tileSize (.of minNormalY tiles g layer) statistics
      = some (.of c g.tileSize (.of minNormalY tiles g layer) statistics) := by
  obtain ⟨hx, hz⟩ := Grid.contains_iff.mp hc
  have hsamples (slot : Nat) (side : LayerStatistics → SideStatistics) :
      (LayerField.rawSide minNormalY tiles g layer slot side).smoothed.samplesOf? c
        = some ((LayerField.rawSide minNormalY tiles g layer slot side).smoothed.samplesOf c) :=
    HeightField.samplesOf?_eq ((HeightField.size_smoothed _).trans (LayerField.size_rawSide ..))
      (Nat.mul_le_mul_right raysPerAxis hz) (Nat.mul_le_mul_right raysPerAxis hx)
  rw [of?, LayerField.of]
  dsimp only
  rw [hsamples, hsamples]
  rfl

/-- The levels of a tile, if there is a field for each of its statistics and it has the places
of the tile. -/
def MeasuredTile.fit? (tile : MeasuredTile) (tileSize : Single) (fields : Array LayerField) :
    Option (List Layer) := do
  let views ← tile.layers.toList.zipIdx.mapM fun (statistics, i) =>
    fields[i]?.bind fun field => LayerView.of? tile.sampled.bin.cell tileSize field statistics
  return Layer.stack views

/-- The greatest of some counts is as great as each of them. -/
theorem le_foldl_max {α : Type} (count : α → Nat) (items : List α) (most : Nat) :
    most ≤ items.foldl (fun most item => max most (count item)) most ∧
      ∀ item ∈ items, count item ≤ items.foldl (fun most item => max most (count item)) most := by
  induction items generalizing most with
  | nil => simp
  | cons first rest ih =>
    obtain ⟨hmost, hrest⟩ := ih (max most (count first))
    rw [List.foldl_cons]
    refine ⟨by omega, fun item hitem => ?_⟩
    rcases List.mem_cons.mp hitem with rfl | hitem
    · omega
    · exact hrest item hitem

/-- The views of a tile on the levels that it was sampled for. -/
def SampledTile.views (tile : SampledTile) (minNormalY : Single) (g : Grid)
    (tiles : Array MeasuredTile) : List LayerView :=
  (List.range tile.layerCount).map fun i =>
    .of tile.bin.cell g.tileSize (.of minNormalY tiles g i) (.of minNormalY tile i)

section
variable {g : Grid} {tile : SampledTile} {tiles : Array MeasuredTile} {minNormalY : Single}

/-- There is a field for every level that a tile has. -/
theorem getElem?_layerFields {i : Nat} (hi : i < tile.layerCount)
    (hle : tile.layerCount ≤ tiles.foldl (fun most tile => max most tile.sampled.layerCount) 0) :
    (layerFields minNormalY g tiles)[i]? = some (.of minNormalY tiles g i) := by
  have hcount := Nat.lt_of_lt_of_le hi hle
  rw [layerFields, Array.getElem?_map, Array.getElem?_range, if_pos hcount, Option.map_some]

variable (hle : tile.layerCount ≤ tiles.foldl (fun most tile => max most tile.sampled.layerCount) 0)

include hle

/-- The levels of a tile are stacked from its views. -/
theorem fitAll_eq_stack :
    Layer.fitAll tile.bin.cell g.tileSize
        ((layerFields minNormalY g tiles).toList.zip (tile.measured minNormalY).layers.toList)
      = Layer.stack (tile.views minNormalY g tiles) := by
  rw [Layer.fitAll, layerFields, SampledTile.measured, SampledTile.views]
  refine congrArg Layer.stack (List.ext_getElem ?_ fun i hi hi' => ?_)
  · simpa using hle
  · simp

/-- A tile of the grid has a field for each of its levels, and its places in it. -/
theorem MeasuredTile.fit?_eq (hc : g.contains tile.bin.cell = true) :
    (tile.measured minNormalY).fit? g.tileSize (layerFields minNormalY g tiles)
      = some (Layer.stack (tile.views minNormalY g tiles)) := by
  have hviews : ((tile.measured minNormalY).layers.toList.zipIdx.mapM fun (statistics, i) =>
      (layerFields minNormalY g tiles)[i]?.bind fun field =>
        LayerView.of? tile.bin.cell g.tileSize field statistics)
      = some (tile.views minNormalY g tiles) := by
    rw [mapM_eq_some_iff]
    refine List.ext_getElem (by simp [SampledTile.measured, SampledTile.views]) fun i hi _ => ?_
    have hi : i < tile.layerCount := by simpa [SampledTile.measured] using hi
    simp [SampledTile.measured, SampledTile.views, getElem?_layerFields hi hle,
      LayerView.of?_eq hc]
  rw [fit?]
  exact congrArg (·.bind fun views => some (Layer.stack views)) hviews

end

/-- There are fields for all levels of a tile. -/
theorem layerCount_le_foldl (minNormalY : Single) {tiles : Array SampledTile} {tile : SampledTile}
    (htile : tile ∈ tiles) :
    tile.layerCount ≤ (tiles.map (·.measured minNormalY)).foldl
      (fun most tile => max most tile.sampled.layerCount) 0 := by
  rw [← Array.foldl_toList, Array.toList_map, List.foldl_map]
  exact (le_foldl_max SampledTile.layerCount _ 0).2 tile (Array.mem_toList_iff.mpr htile)

/-- Fitting stacks the views of every tile. -/
theorem fitLayers_eq (minNormalY : Single) (g : Grid) (tiles : Array SampledTile) :
    fitLayers minNormalY g tiles = tiles.map fun tile =>
      ⟨tile.measured minNormalY,
        Layer.stack (tile.views minNormalY g (tiles.map (·.measured minNormalY)))⟩ := by
  rw [fitLayers, Array.map_map]
  refine Array.map_congr_left fun tile htile => ?_
  exact congrArg _ (fitAll_eq_stack (layerCount_le_foldl minNormalY htile))

/-- Fit tiles that may have been fitted before, with every index checked. -/
def refit? (minNormalY : Single) (g : Grid) (tiles : Array FittedTile) :
    Option (Array FittedTile) := do
  let measured := tiles.map fun tile => tile.sampled.measured minNormalY
  let count := measured.foldl (fun most tile => max most tile.sampled.layerCount) 0
  let fields ← (List.range count).mapM (LayerField.of? minNormalY measured g)
  let fitted ← measured.toList.mapM fun tile =>
    (tile.fit? g.tileSize fields.toArray).map (FittedTile.mk tile)
  return fitted.toArray

/-- On the tiles of a grid no index is missing, whatever was fitted before, and the passes come
to what fitting them gives. -/
theorem refit?_eq {g : Grid} {tiles : Array SampledTile} (h : g.Sampled tiles)
    (minNormalY : Single) {old : Array FittedTile} (hold : old.map FittedTile.sampled = tiles) :
    refit? minNormalY g old = some (fitLayers minNormalY g tiles) := by
  have hmeasured : (old.map fun tile => tile.sampled.measured minNormalY)
      = tiles.map (·.measured minNormalY) := by
    rw [← hold, Array.map_map]
    rfl
  have hfields (count : Nat) :
      (List.range count).mapM (LayerField.of? minNormalY (tiles.map (·.measured minNormalY)) g)
        = some ((List.range count).map
          (LayerField.of minNormalY (tiles.map (·.measured minNormalY)) g)) := by
    rw [mapM_eq_some_iff, List.map_map]
    exact List.map_congr_left fun layer _ => LayerField.of?_eq h minNormalY layer
  have hfitted : ((tiles.map (·.measured minNormalY)).toList.mapM fun tile =>
      (tile.fit? g.tileSize (layerFields minNormalY g (tiles.map (·.measured minNormalY)))).map
        (FittedTile.mk tile)) = some (fitLayers minNormalY g tiles).toList := by
    rw [mapM_eq_some_iff, fitLayers_eq, Array.toList_map, Array.toList_map, List.map_map,
      List.map_map]
    refine List.map_congr_left fun tile htile => ?_
    dsimp only [Function.comp_apply]
    rw [Array.mem_toList_iff] at htile
    rw [MeasuredTile.fit?_eq (layerCount_le_foldl minNormalY htile)
      (h.getElem?_tileIndex htile).1]
    rfl
  have harray (count : Nat) : ((List.range count).map
      (LayerField.of minNormalY (tiles.map (·.measured minNormalY)) g)).toArray
      = (Array.range count).map
        (LayerField.of minNormalY (tiles.map (·.measured minNormalY)) g) := by
    simp [← Array.toList_inj]
  rw [layerFields] at hfitted
  -- From here on both sides do the same passes one after the other.
  rw [refit?, hmeasured]
  simp only [Option.bind_eq_bind, hfields, Option.bind_some, harray, hfitted]
  rfl

end Battlemap
