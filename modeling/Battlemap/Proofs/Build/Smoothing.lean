import Battlemap.Build.Layer
import Battlemap.Proofs.InPlace
import Battlemap.Proofs.Number.Arithmetic
import Battlemap.Proofs.Number.Order
import Mathlib.Data.List.ProdSigma

/-!
# `Battlemap.Proofs.Build.Smoothing`: smoothing as averages, and the order of fields

Smoothing changes a copy of a field cell by cell, and reads the field itself. So it is the
same as replacing all valid heights at once by the averages of their windows
(`HeightField.sample_smoothed`): every cell is visited once (`HeightField.nodup_places`), and
a visit changes no other one.

Sums of singles keep the order of their terms, and so do the quotients by one
count, as long as they are finite. So the averages of two windows are ordered
if the windows have heights at the same places and these are ordered place by
place (`HeightField.average_le_average`), and smoothing keeps the order of two
such fields (`HeightField.below_smoothed`).

A field that is not smoothed yet holds the fragments of the rays at their places
(`LayerField.sample_rawSide`, `LayerField.exists_of_valid`).
-/

set_option autoImplicit false

namespace Battlemap

namespace Single

/-- What a finite sum starts from is finite. -/
theorem isFinite_of_isFinite_foldl_add {heights : List Single} {start : Single}
    (h : (heights.foldl (· + ·) start).isFinite = true) : start.isFinite = true := by
  induction heights generalizing start with
  | nil => exact h
  | cons a rest ih => exact (isFinite_of_isFinite_add (ih h)).1

/-- Sums that are finite are ordered as their terms. -/
theorem foldl_add_le_foldl_add {ι : Type} {places : List ι} {f g : ι → Single}
    (hle : ∀ p ∈ places, f p ≤ g p) {start start' : Single} (hstart : start ≤ start')
    (hf : ((places.map f).foldl (· + ·) start).isFinite = true)
    (hg : ((places.map g).foldl (· + ·) start').isFinite = true) :
    (places.map f).foldl (· + ·) start ≤ (places.map g).foldl (· + ·) start' := by
  induction places generalizing start start' with
  | nil => exact hstart
  | cons p rest ih =>
    rw [List.map_cons, List.foldl_cons] at hf hg ⊢
    -- Each partial sum of a finite sum is finite, and so is what is added to it.
    obtain ⟨hfstart, hfp⟩ := isFinite_of_isFinite_add (isFinite_of_isFinite_foldl_add hf)
    obtain ⟨hgstart, hgp⟩ := isFinite_of_isFinite_add (isFinite_of_isFinite_foldl_add hg)
    refine ih (fun q hq => hle q (List.mem_cons_of_mem p hq)) ?_ hf hg
    exact Single.add_le_add hfstart hgstart hfp hgp hstart (hle p List.mem_cons_self)

end Single

/-- Two samples agree on whether there is a height, and if there is one then
that of the first is not above that of the second. -/
structure FieldSample.Below (s t : FieldSample) : Prop where
  valid : s.valid = t.valid
  height : t.valid = true → s.height ≤ t.height

namespace HeightField

/-! ### Windows -/

/-- The coordinates next to one of an axis with `count` places, clamped
to the axis. -/
def window (count place : Nat) : List Nat :=
  [place - 1, place, min (place + 1) (count - 1)]

/-- The samples of the window around a place, row by row. -/
def around (f : HeightField) (row column : Nat) : List FieldSample :=
  (window f.rows row).flatMap fun r => (window f.columns column).map fun c => f.sample r c

/-- The average of the valid heights, summed from the first one on. -/
def average (samples : List FieldSample) : Single :=
  let heights := (samples.filter FieldSample.valid).map FieldSample.height
  heights.foldl (· + ·) .zero / .ofUInt64 heights.length.toUInt64

/-- The places of the window around a place, row by row. -/
def placesAround (rows columns row column : Nat) : List (Nat × Nat) :=
  (window rows row).flatMap fun r => (window columns column).map fun c => (r, c)

/-- The samples around a place are those at the places of its window. -/
theorem around_eq (f : HeightField) (row column : Nat) :
    f.around row column
      = (placesAround f.rows f.columns row column).map fun p => f.sample p.1 p.2 := by
  simp [around, placesAround, List.map_flatMap, Function.comp_def]

/-- A window has places of the axis only, at most one step away. -/
theorem mem_window {count place : Nat} (h : place < count) {p : Nat} (hp : p ∈ window count place) :
    p < count ∧ place ≤ p + 1 ∧ p ≤ place + 1 := by
  simp only [window, List.mem_cons, List.not_mem_nil, or_false] at hp
  omega

/-- The places around a place of a field are places of it, and at most one step
away. -/
theorem mem_placesAround {rows columns row column : Nat} (hrow : row < rows)
    (hcolumn : column < columns) {p : Nat × Nat} (h : p ∈ placesAround rows columns row column) :
    (p.1 < rows ∧ row ≤ p.1 + 1 ∧ p.1 ≤ row + 1) ∧
      p.2 < columns ∧ column ≤ p.2 + 1 ∧ p.2 ≤ column + 1 := by
  simp only [placesAround, List.mem_flatMap, List.mem_map] at h
  obtain ⟨r, hr, c, hc, rfl⟩ := h
  exact ⟨mem_window hrow hr, mem_window hcolumn hc⟩

/-- There are nine places around each one, some of them more than once at an edge. -/
theorem length_placesAround (rows columns row column : Nat) :
    (placesAround rows columns row column).length = 9 := by
  simp [placesAround, window]

/-- The three steps along an axis lead to its window. -/
theorem map_placeBeside {count place : Nat} (h : place < count) :
    windowSteps.map (placeBeside count place) = window count place := by
  have hback : placeBeside count place (-1) = place - 1 := by
    unfold placeBeside
    dsimp only
    split <;> omega
  have hhere : placeBeside count place 0 = place := by
    unfold placeBeside
    dsimp only
    split <;> omega
  have hforth : placeBeside count place 1 = min (place + 1) (count - 1) := by
    unfold placeBeside
    dsimp only
    split <;> omega
  rw [windowSteps, window, List.map_cons, List.map_cons, List.map_cons, hback, hhere, hforth,
    List.map_nil]

/-- A tally is the sum of the valid heights, from the first one on, and their number. -/
theorem foldl_add_tally (samples : List FieldSample) (t : Tally) :
    samples.foldl Tally.add t =
      let heights := (samples.filter FieldSample.valid).map FieldSample.height
      ⟨heights.foldl (· + ·) t.sum, t.count + heights.length.toUInt32⟩ := by
  induction samples generalizing t with
  | nil => simp
  | cons sample rest ih =>
    rw [List.foldl_cons, ih, Tally.add]
    cases hvalid : sample.valid with
    | false => simp [hvalid]
    | true => simp [hvalid, UInt32.add_assoc, UInt32.add_comm 1]

/-- The tally of a place of the field is that of the samples around it. -/
theorem tally_eq {f : HeightField} {row column : Nat} (hrow : row < f.rows)
    (hcolumn : column < f.columns) :
    f.tally row column = (f.around row column).foldl Tally.add .empty := by
  rw [around, ← map_placeBeside hrow, ← map_placeBeside hcolumn, List.foldl_flatMap,
    List.foldl_map]
  simp only [List.map_map, List.foldl_map, Function.comp_apply]
  rfl

/-- The counts of a window are one and the same number in 32 bits and in 64 bits. -/
theorem ofUInt32_eq_ofUInt64 {n : Nat} (h : n ≤ 9) :
    Single.ofUInt32 n.toUInt32 = Single.ofUInt64 n.toUInt64 := by
  have hall : ∀ n < 10, Single.ofUInt32 n.toUInt32 = Single.ofUInt64 n.toUInt64 := by decide
  exact hall n (by omega)

/-- The tally of a window has the average of the samples around the place. -/
theorem average_tally {f : HeightField} {row column : Nat} (hrow : row < f.rows)
    (hcolumn : column < f.columns) :
    (f.tally row column).average = average (f.around row column) := by
  have hlength : (((f.around row column).filter FieldSample.valid).map
      FieldSample.height).length ≤ 9 := by
    rw [List.length_map]
    refine (List.length_filter_le _ _).trans ?_
    rw [around_eq, List.length_map, length_placesAround]
  rw [tally_eq hrow hcolumn, foldl_add_tally, Tally.average, average, Tally.empty]
  dsimp only
  rw [UInt32.zero_add, ofUInt32_eq_ofUInt64 hlength]

/-! ### Smoothing cell by cell -/

/-- The counts that an average can divide by. -/
theorem count_pos {n : Nat} (hpos : n ≠ 0) (hle : n ≤ 9) :
    (Single.ofUInt64 n.toUInt64).isFinite = true ∧ 0 < (Single.ofUInt64 n.toUInt64).units := by
  have hall : ∀ n < 10, n ≠ 0 → (Single.ofUInt64 n.toUInt64).isFinite = true ∧
      0 < (Single.ofUInt64 n.toUInt64).units := by
    decide
  exact hall n (by omega) hpos

/-- Averages that are finite are ordered as their samples. -/
theorem average_le_average {places : List (Nat × Nat)} (hlength : places.length ≤ 9)
    {f g : Nat × Nat → FieldSample} (h : ∀ p ∈ places, (f p).Below (g p))
    (hf : (average (places.map f)).isFinite = true)
    (hg : (average (places.map g)).isFinite = true) :
    average (places.map f) ≤ average (places.map g) := by
  -- Both averages are taken over the same places.
  let valid := places.filter fun p => (g p).valid
  have hvalid : places.filter (fun p => (f p).valid) = valid :=
    List.filter_congr fun p hp => (h p hp).valid
  have haverage (f : Nat × Nat → FieldSample)
      (hf : places.filter (fun p => (f p).valid) = valid) : average (places.map f)
        = (valid.map fun p => (f p).height).foldl (· + ·) .zero
          / .ofUInt64 valid.length.toUInt64 := by
    rw [← hf]
    simp [average, List.filter_map, Function.comp_def]
  rw [haverage f hvalid] at hf ⊢
  rw [haverage g rfl] at hg ⊢
  -- An average of nothing is not finite.
  have hpos : valid.length ≠ 0 := by
    intro hzero
    rw [List.length_eq_zero_iff.mp hzero] at hg
    exact absurd hg (by rw [List.map_nil]; decide)
  obtain ⟨hcount, hunits⟩ := count_pos hpos
    (Nat.le_trans (List.length_filter_le _ places) hlength)
  have hsumf := Single.isFinite_of_isFinite_div hf hcount
  have hsumg := Single.isFinite_of_isFinite_div hg hcount
  refine Single.div_le_div hsumf hsumg hcount hunits ?_
  refine Single.foldl_add_le_foldl_add (fun p hp => ?_) (Single.le_refl rfl) hsumf hsumg
  obtain ⟨hp, hvalidp⟩ := List.mem_filter.mp hp
  exact (h p hp).height hvalidp

/-- The place of a row and a column, and what it stands for. -/
theorem place_div_mod {rows columns row column : Nat} (hrow : row < rows)
    (hcolumn : column < columns) :
    row * columns + column < columns * rows ∧ (row * columns + column) / columns = row ∧
      (row * columns + column) % columns = column := by
  refine ⟨?_, ?_, ?_⟩
  · calc row * columns + column < (row + 1) * columns := by rw [Nat.succ_mul]; omega
      _ ≤ rows * columns := Nat.mul_le_mul_right columns hrow
      _ = columns * rows := Nat.mul_comm ..
  · rw [Nat.add_comm, Nat.add_mul_div_right _ _ (Nat.zero_lt_of_lt hcolumn),
      Nat.div_eq_of_lt hcolumn, Nat.zero_add]
  · rw [Nat.add_comm, Nat.add_mul_mod_self_right, Nat.mod_eq_of_lt hcolumn]

/-- A cell of the output after its visit, which reads the field only. -/
def visited (f : HeightField) (p : Nat × Nat) (cell : FieldSample) : FieldSample :=
  if (f.sample p.1 p.2).valid then { cell with height := (f.tally p.1 p.2).average } else cell

/-- Smoothing one place changes what is stored there and nothing else. -/
theorem smoothCell_eq (f : HeightField) (row : Nat) (out : Array FieldSample) (column : Nat) :
    f.smoothCell row out column
      = out.modify (row * f.columns + column) (f.visited (row, column)) := by
  unfold smoothCell visited
  split
  · rfl
  · refine Array.ext_getElem? fun i => ?_
    simp [Array.getElem?_modify]

/-- The rows and columns of the cells in the order in which they are visited. -/
def places (f : HeightField) : List (Nat × Nat) := List.range f.rows ×ˢ List.range f.columns

/-- The pass visits all rows and columns. -/
theorem mem_places {f : HeightField} {p : Nat × Nat} :
    p ∈ f.places ↔ p.1 < f.rows ∧ p.2 < f.columns := by
  rw [places, List.mem_product, List.mem_range, List.mem_range]

/-- The pass over the rows is one over all places, in place. -/
theorem samples_smoothed_eq_foldl (f : HeightField) :
    f.smoothed.samples = f.places.foldl
      (fun out p => out.modify (p.1 * f.columns + p.2) (f.visited p)) f.samples := by
  unfold smoothed places SProd.sprod List.instSProd List.product
  simp only [List.foldl_flatMap, List.foldl_map, ← smoothCell_eq]
  rfl

/-- No cell is visited twice. -/
theorem nodup_places (f : HeightField) :
    (f.places.map fun p => p.1 * f.columns + p.2).Nodup := by
  refine (List.nodup_range.product List.nodup_range).map_on ?_
  intro p hp q hq heq
  obtain ⟨hprow, hpcolumn⟩ := mem_places.mp hp
  obtain ⟨hqrow, hqcolumn⟩ := mem_places.mp hq
  obtain ⟨-, hpdiv, hpmod⟩ := place_div_mod hprow hpcolumn
  obtain ⟨-, hqdiv, hqmod⟩ := place_div_mod hqrow hqcolumn
  refine Prod.ext ?_ ?_
  · rw [← hpdiv, heq, hqdiv]
  · rw [← hpmod, heq, hqmod]

/-- Smoothing keeps the number of cells. -/
theorem size_smoothed (f : HeightField) : f.smoothed.samples.size = f.samples.size := by
  rw [samples_smoothed_eq_foldl]
  exact size_foldl (fun _ _ => Array.size_modify) _ _

/-- The sample of a field after smoothing. -/
theorem sample_smoothed {f : HeightField} (hsize : f.samples.size = f.columns * f.rows)
    {row column : Nat} (hrow : row < f.rows) (hcolumn : column < f.columns) :
    f.smoothed.sample row column
      = if (f.sample row column).valid then
          { f.sample row column with height := average (f.around row column) }
        else f.sample row column := by
  have hplace := (place_div_mod hrow hcolumn).1
  rw [← hsize] at hplace
  have hbefore : f.samples[row * f.columns + column]? = some (f.sample row column) := by
    simp [sample, hplace]
  have hafter : f.smoothed.samples[row * f.columns + column]?
      = f.samples[row * f.columns + column]?.map (f.visited (row, column)) := by
    have hmem : (row, column) ∈ f.places := mem_places.mpr ⟨hrow, hcolumn⟩
    rw [samples_smoothed_eq_foldl]
    exact getElem?_foldl_modify_of_mem f.nodup_places hmem f.samples
  rw [hbefore, Option.map_some, visited, average_tally hrow hcolumn] at hafter
  have hcolumns : f.smoothed.columns = f.columns := rfl
  rw [sample, hcolumns, Array.getD_eq_getD_getElem?, hafter, Option.getD_some]

/-- Smoothing keeps what is valid. -/
theorem valid_sample_smoothed {f : HeightField} (hsize : f.samples.size = f.columns * f.rows)
    {row column : Nat} (hrow : row < f.rows) (hcolumn : column < f.columns) :
    (f.smoothed.sample row column).valid = (f.sample row column).valid := by
  rw [sample_smoothed hsize hrow hcolumn]
  split <;> rfl

/-- Smoothing keeps the solids of all samples. -/
theorem solid_sample_smoothed {f : HeightField} (hsize : f.samples.size = f.columns * f.rows)
    {row column : Nat} (hrow : row < f.rows) (hcolumn : column < f.columns) :
    (f.smoothed.sample row column).solid = (f.sample row column).solid := by
  rw [sample_smoothed hsize hrow hcolumn]
  split <;> rfl

/-- Smoothing keeps the order of two fields at a place, if their averages there
are finite. -/
theorem below_smoothed {f g : HeightField} (hrows : f.rows = g.rows)
    (hcolumns : f.columns = g.columns) (hf : f.samples.size = f.columns * f.rows)
    (hg : g.samples.size = g.columns * g.rows) {row column : Nat} (hrow : row < g.rows)
    (hcolumn : column < g.columns)
    (h : ∀ p ∈ placesAround g.rows g.columns row column,
      (f.sample p.1 p.2).Below (g.sample p.1 p.2))
    (hffinite : (f.smoothed.sample row column).valid = true →
      (f.smoothed.sample row column).height.isFinite = true)
    (hgfinite : (g.smoothed.sample row column).valid = true →
      (g.smoothed.sample row column).height.isFinite = true) :
    (f.smoothed.sample row column).Below (g.smoothed.sample row column) := by
  -- The place itself is in its window, so both samples are valid or neither is.
  have hown : (f.sample row column).Below (g.sample row column) :=
    h (row, column) (by simp [placesAround, window])
  rw [sample_smoothed hf (hrows ▸ hrow) (hcolumns ▸ hcolumn)] at hffinite ⊢
  rw [sample_smoothed hg hrow hcolumn] at hgfinite ⊢
  rw [hown.valid] at hffinite ⊢
  cases hvalid : (g.sample row column).valid with
  | false => simpa [hvalid] using hown
  | true =>
    simp only [hvalid, if_true, hown.valid, true_implies] at hffinite hgfinite ⊢
    refine ⟨rfl, fun _ => ?_⟩
    rw [around_eq, hrows, hcolumns] at hffinite ⊢
    rw [around_eq] at hgfinite ⊢
    exact average_le_average (by simp [placesAround, window]) h hffinite hgfinite

/-- The rays of a tile stand at places of a field that covers the tile. -/
theorem rayPlace_lt {rows columns : Nat} {c : Cell}
    (hrows : (c.z.toNat + 1) * raysPerAxis ≤ rows)
    (hcolumns : (c.x.toNat + 1) * raysPerAxis ≤ columns) {n : Nat} (hn : n < raysPerTile) :
    c.z.toNat * raysPerAxis + n / raysPerAxis < rows ∧
      c.x.toNat * raysPerAxis + n % raysPerAxis < columns := by
  rw [Nat.add_one_mul] at hrows hcolumns
  have hrow : n / raysPerAxis < raysPerAxis := Nat.div_lt_of_lt_mul hn
  have hcolumn : n % raysPerAxis < raysPerAxis := Nat.mod_lt n (by decide)
  omega

/-- The row and the column of a ray name its tile and its place there. -/
theorem ray_div_mod {n : Nat} (hn : n < raysPerTile) (z x : Nat) :
    ((z * raysPerAxis + n / raysPerAxis) / raysPerAxis = z ∧
      (z * raysPerAxis + n / raysPerAxis) % raysPerAxis = n / raysPerAxis) ∧
    (x * raysPerAxis + n % raysPerAxis) / raysPerAxis = x ∧
      (x * raysPerAxis + n % raysPerAxis) % raysPerAxis = n % raysPerAxis :=
  ⟨(place_div_mod (Nat.lt_succ_self z) (Nat.div_lt_of_lt_mul hn)).2,
    (place_div_mod (Nat.lt_succ_self x) (Nat.mod_lt n (by decide))).2⟩

/-- The samples of a tile after smoothing, in terms of those before it. -/
theorem samplesOf_smoothed {f : HeightField} (hsize : f.samples.size = f.columns * f.rows)
    {c : Cell} (hrows : (c.z.toNat + 1) * raysPerAxis ≤ f.rows)
    (hcolumns : (c.x.toNat + 1) * raysPerAxis ≤ f.columns) {raw : Nat × Nat → FieldSample}
    (hraw : ∀ p : Nat × Nat, p.1 < f.rows → p.2 < f.columns → f.sample p.1 p.2 = raw p) :
    f.smoothed.samplesOf c = (List.range raysPerTile).filterMap fun n =>
      let p := (c.z.toNat * raysPerAxis + n / raysPerAxis,
        c.x.toNat * raysPerAxis + n % raysPerAxis)
      if (raw p).valid then
        some (n, { raw p with height := average ((placesAround f.rows f.columns p.1 p.2).map raw) })
      else none := by
  refine List.filterMap_congr fun n hn => ?_
  obtain ⟨hrow, hcolumn⟩ := rayPlace_lt hrows hcolumns (List.mem_range.mp hn)
  -- The window of a place inside the field has places inside the field only, where the samples
  -- are given.
  have haround : f.around (c.z.toNat * raysPerAxis + n / raysPerAxis)
      (c.x.toNat * raysPerAxis + n % raysPerAxis)
      = (placesAround f.rows f.columns (c.z.toNat * raysPerAxis + n / raysPerAxis)
        (c.x.toNat * raysPerAxis + n % raysPerAxis)).map raw := by
    rw [around_eq]
    refine List.map_congr_left fun p hp => ?_
    obtain ⟨hprow, hpcolumn⟩ := mem_placesAround hrow hcolumn hp
    exact hraw p hprow.1 hpcolumn.1
  dsimp only
  rw [sample_smoothed hsize hrow hcolumn, hraw (_, _) hrow hcolumn, haround]
  split <;> simp_all

end HeightField

namespace LayerField

/-! ### Fields before smoothing -/

variable {minNormalY : Single} {tiles : Array MeasuredTile} {g : Grid} {layer slot : Nat}
  {side : LayerStatistics → SideStatistics} {row column : Nat}

/-- A valid sample has the height of the fragment of the ray at its place, and the solid that
carries this side of the level in the tile of that ray. -/
theorem exists_of_valid
    (h : (sampleAt minNormalY tiles g layer slot side row column).valid = true) :
    ∃ tile statistics ray f,
      tiles[row / raysPerAxis * g.width.toNat + column / raysPerAxis]? = some tile ∧
      tile.layers[layer]? = some statistics ∧
      tile.sampled.rays[row % raysPerAxis * raysPerAxis + column % raysPerAxis]? = some ray ∧
      ray[slot]? = some f ∧ sampleAt minNormalY tiles g layer slot side row column
        = ⟨f.height, true, (side statistics).dominant⟩ := by
  -- A sample is absent wherever one of the three is missing, and not valid unless the height was
  -- accepted.
  unfold sampleAt at h ⊢
  split at h
  case h_1 => cases h
  case h_2 tile htile =>
    rw [htile]
    split at h
    case h_2 => cases h
    case h_1 statistics ray hstatistics hray =>
      unfold FieldSample.of at h ⊢
      split at h
      case h_2 => cases h
      case h_1 f hf =>
        split at h
        case isFalse => cases h
        case isTrue haccepted =>
          refine ⟨tile, statistics, ray, f, rfl, hstatistics, hray, hf, ?_⟩
          exact if_pos haccepted

/-- A side of a level has one sample per ray of the grid. -/
theorem size_rawSide (minNormalY : Single) (tiles : Array MeasuredTile) (g : Grid)
    (layer slot : Nat) (side : LayerStatistics → SideStatistics) :
    (rawSide minNormalY tiles g layer slot side).samples.size
      = g.width.toNat * raysPerAxis * (g.height.toNat * raysPerAxis) := by
  simp [rawSide]

/-- Each of them is what the ray at that place contributes. -/
theorem sample_rawSide (minNormalY : Single) (tiles : Array MeasuredTile) (layer slot : Nat)
    (side : LayerStatistics → SideStatistics) (hrow : row < g.height.toNat * raysPerAxis)
    (hcolumn : column < g.width.toNat * raysPerAxis) :
    (rawSide minNormalY tiles g layer slot side).sample row column
      = sampleAt minNormalY tiles g layer slot side row column := by
  obtain ⟨hplace, hdiv, hmod⟩ := HeightField.place_div_mod hrow hcolumn
  simp [rawSide, HeightField.sample, hplace, hdiv, hmod]

end LayerField

end Battlemap
