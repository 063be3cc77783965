import Battlemap.Proofs.Build.Smoothing
import Battlemap.Proofs.Number.Error

/-!
# `Battlemap.Proofs.Build.WindowAverage`: what a smoothed field is made of

Smoothing goes over a copy of the field cell by cell, so it has to be said that the result
does not depend on how much of the copy is smoothed already. `HeightField.IsSmoothingOf` says
what the result is instead: all cells keep whether they are valid and the solid they name,
cells that are not valid keep their height, and a valid cell has the average of the valid
heights of its window in the field as it was. The window goes one step in each direction and
stays inside the field, so that at an edge some cells are in it twice, and count twice.

The window has the cell itself in it. So the average of a valid cell is one of at least one
height and at most nine, and nothing is divided by zero (`zero_lt_count`). All cells of all
windows are cells of the field (`place_lt_of_steps`).

`smoothed_averages` is all of this for every field, and what follows from it: heights that are
not valid have no influence. Two fields that have the same valid cells with the same heights in
them have the same heights there when they are smoothed, whatever else they hold.
-/

set_option autoImplicit false

namespace Battlemap

namespace HeightField

/-! ### The window of a cell -/

/-- A place on an axis with `count` places, moved to the nearer end if it is beyond it. -/
def clampTo (count : Nat) (place : Int) : Nat := (max 0 (min place (count - 1))).toNat

/-- The samples one step around a cell and of the cell itself, row by row. At an edge the cells
of the edge stand for those beyond it. -/
def windowAt (f : HeightField) (row column : Nat) : List FieldSample :=
  ([-1, 0, 1] : List Int).flatMap fun dz => ([-1, 0, 1] : List Int).map fun dx =>
    f.sample (clampTo f.rows (row + dz)) (clampTo f.columns (column + dx))

/-- The valid heights of the window of a cell. -/
def heightsAt (f : HeightField) (row column : Nat) : List Single :=
  ((f.windowAt row column).filter FieldSample.valid).map FieldSample.height

/-- A step along an axis stops at the end of the axis. -/
theorem placeBeside_eq_clampTo {count place : Nat} (h : place < count) (step : Int) :
    placeBeside count place step = clampTo count (place + step) := by
  unfold placeBeside clampTo
  dsimp only
  split_ifs <;> omega

/-- A place that is held on an axis with places is one of them. -/
theorem clampTo_lt {count : Nat} (h : 0 < count) (place : Int) : clampTo count place < count := by
  unfold clampTo
  omega

/-- The window of a place, row by row, has the samples around the place. -/
theorem windowAt_eq_around {f : HeightField} {row column : Nat} (hrow : row < f.rows)
    (hcolumn : column < f.columns) : f.windowAt row column = f.around row column := by
  rw [around, ← map_placeBeside hrow, ← map_placeBeside hcolumn]
  simp only [windowSteps, List.map_cons, List.map_nil, placeBeside_eq_clampTo hrow,
    placeBeside_eq_clampTo hcolumn]
  rfl

variable {f g : HeightField} {row column : Nat}

/-- Every cell that is read is one of the field. -/
theorem place_lt_of_steps (hsize : f.samples.size = f.columns * f.rows) (hrow : row < f.rows)
    (hcolumn : column < f.columns) (dz dx : Int) :
    placeBeside f.rows row dz * f.columns + placeBeside f.columns column dx < f.samples.size := by
  rw [placeBeside_eq_clampTo hrow, placeBeside_eq_clampTo hcolumn, hsize]
  exact (place_div_mod (clampTo_lt (Nat.zero_lt_of_lt hrow) _)
    (clampTo_lt (Nat.zero_lt_of_lt hcolumn) _)).1

/-- A valid cell is in its own window. -/
theorem heightsAt_ne_nil (hrow : row < f.rows) (hcolumn : column < f.columns)
    (hvalid : (f.sample row column).valid = true) : f.heightsAt row column ≠ [] := by
  have hown : f.sample row column ∈ f.windowAt row column := by
    rw [windowAt_eq_around hrow hcolumn, around_eq]
    exact List.mem_map.mpr ⟨(row, column), by simp [placesAround, window], rfl⟩
  have hheight : (f.sample row column).height ∈ f.heightsAt row column :=
    List.mem_map_of_mem (List.mem_filter.mpr ⟨hown, hvalid⟩)
  exact List.ne_nil_of_mem hheight

/-- At most nine heights are averaged. -/
theorem length_heightsAt_le (hrow : row < f.rows) (hcolumn : column < f.columns) :
    (f.heightsAt row column).length ≤ 9 := by
  rw [heightsAt, List.length_map, windowAt_eq_around hrow hcolumn, around_eq]
  exact (List.length_filter_le _ _).trans (by rw [List.length_map, length_placesAround])

/-- The tally of a cell has the valid heights of its window, summed from the first one on. -/
theorem tally_eq_heightsAt (hrow : row < f.rows) (hcolumn : column < f.columns) :
    f.tally row column = ⟨(f.heightsAt row column).foldl (· + ·) .zero,
      (f.heightsAt row column).length.toUInt32⟩ := by
  rw [tally_eq hrow hcolumn, foldl_add_tally, heightsAt, windowAt_eq_around hrow hcolumn]
  simp only [Tally.empty, UInt32.zero_add]

/-- No average of a valid cell divides by zero. -/
theorem zero_lt_count (hrow : row < f.rows) (hcolumn : column < f.columns)
    (hvalid : (f.sample row column).valid = true) :
    Single.zero < .ofUInt32 (f.tally row column).count := by
  have hlength := length_heightsAt_le hrow hcolumn
  have hne : (f.heightsAt row column).length ≠ 0 :=
    mt List.length_eq_zero_iff.mp (heightsAt_ne_nil hrow hcolumn hvalid)
  obtain ⟨hfinite, hunits⟩ := count_pos hne hlength
  rw [tally_eq_heightsAt hrow hcolumn, ofUInt32_eq_ofUInt64 hlength]
  exact (Single.lt_iff_units_lt rfl hfinite).mpr hunits

/-! ### The smoothed field -/

/-- What a field becomes when all its cells are smoothed at once. -/
structure IsSmoothingOf (out f : HeightField) : Prop where
  columns : out.columns = f.columns
  rows : out.rows = f.rows
  size : out.samples.size = f.samples.size
  valid : out.samples.map FieldSample.valid = f.samples.map FieldSample.valid
  solid : out.samples.map FieldSample.solid = f.samples.map FieldSample.solid
  /-- A cell that is not valid keeps its height. -/
  kept : ∀ row < f.rows, ∀ column < f.columns, (f.sample row column).valid = false →
    (out.sample row column).height = (f.sample row column).height
  /-- A valid cell has the average of the valid heights around it. -/
  averaged : ∀ row < f.rows, ∀ column < f.columns, (f.sample row column).valid = true →
    (out.sample row column).height = (f.heightsAt row column).foldl (· + ·) .zero
      / .ofUInt32 (f.heightsAt row column).length.toUInt32

/-- Two fields of one shape with the same valid cells and the same heights in them. -/
structure AgreeOnValid (f g : HeightField) : Prop where
  columns : f.columns = g.columns
  rows : f.rows = g.rows
  size : f.samples.size = g.samples.size
  valid : ∀ row < g.rows, ∀ column < g.columns,
    (f.sample row column).valid = (g.sample row column).valid
  height : ∀ row < g.rows, ∀ column < g.columns, (g.sample row column).valid = true →
    (f.sample row column).height = (g.sample row column).height

/-- What smoothing leaves alone in a cell it leaves alone in the whole field. -/
theorem map_samples_smoothed {β : Type} (part : FieldSample → β)
    (hsize : f.samples.size = f.columns * f.rows)
    (hpart : ∀ row < f.rows, ∀ column < f.columns,
      part (f.smoothed.sample row column) = part (f.sample row column)) :
    f.smoothed.samples.map part = f.samples.map part := by
  have hsmoothed := f.size_smoothed
  refine Array.ext (by simp [hsmoothed]) fun place hplace hplace' => ?_
  rw [Array.size_map, hsize] at hplace'
  -- A place is in the row and the column that division and rest say.
  have hcell := hpart (place / f.columns) (Nat.div_lt_of_lt_mul hplace') (place % f.columns)
    (Nat.mod_lt _ (Nat.pos_of_lt_mul_right hplace'))
  have hcolumns : f.smoothed.columns = f.columns := rfl
  rw [sample, sample, hcolumns, Nat.div_add_mod'] at hcell
  simpa [hsmoothed, hsize, hplace'] using hcell

/-- A field of the right size is smoothed place by place. -/
theorem isSmoothingOf_smoothed (hsize : f.samples.size = f.columns * f.rows) :
    f.smoothed.IsSmoothingOf f where
  columns := rfl
  rows := rfl
  size := f.size_smoothed
  valid := map_samples_smoothed _ hsize fun _ hrow _ hcolumn =>
    valid_sample_smoothed hsize hrow hcolumn
  solid := map_samples_smoothed _ hsize fun _ hrow _ hcolumn =>
    solid_sample_smoothed hsize hrow hcolumn
  kept := by
    intro row hrow column hcolumn hvalid
    rw [sample_smoothed hsize hrow hcolumn, hvalid]
    rfl
  averaged := by
    intro row hrow column hcolumn hvalid
    rw [sample_smoothed hsize hrow hcolumn, if_pos hvalid]
    dsimp only
    rw [← average_tally hrow hcolumn, tally_eq_heightsAt hrow hcolumn]
    rfl

/-- Fields that agree on what is valid have the same valid heights in every window. -/
theorem AgreeOnValid.heightsAt_eq (h : f.AgreeOnValid g) (hrow : row < g.rows)
    (hcolumn : column < g.columns) : f.heightsAt row column = g.heightsAt row column := by
  have hrow' : row < f.rows := h.rows ▸ hrow
  have hcolumn' : column < f.columns := h.columns ▸ hcolumn
  rw [heightsAt, heightsAt, windowAt_eq_around hrow hcolumn, windowAt_eq_around hrow' hcolumn',
    around_eq, around_eq, h.rows, h.columns, List.filter_map, List.filter_map, List.map_map,
    List.map_map]
  have hplaces {p : Nat × Nat} (hp : p ∈ placesAround g.rows g.columns row column) :
      p.1 < g.rows ∧ p.2 < g.columns :=
    ⟨(mem_placesAround hrow hcolumn hp).1.1, (mem_placesAround hrow hcolumn hp).2.1⟩
  -- The same places of the window are valid, and the heights at these are the same.
  have hvalid : (placesAround g.rows g.columns row column).filter
      (FieldSample.valid ∘ fun p => f.sample p.1 p.2)
        = (placesAround g.rows g.columns row column).filter
          (FieldSample.valid ∘ fun p => g.sample p.1 p.2) :=
    List.filter_congr fun p hp => h.valid p.1 (hplaces hp).1 p.2 (hplaces hp).2
  rw [hvalid]
  refine List.map_congr_left fun p hp => ?_
  obtain ⟨hp, hvalidp⟩ := List.mem_filter.mp hp
  exact h.height p.1 (hplaces hp).1 p.2 (hplaces hp).2 hvalidp

/-- Smoothing reads cells of the field only and does not divide by zero. It keeps the shape of
the field, which cells are valid, their solids, and the heights of the cells that are not. All
valid cells are replaced at once, each by the average of the valid heights of its window in
the field as it was. So the smoothed heights of the valid cells do not depend on what the other
cells hold. -/
theorem smoothed_averages (f : HeightField) (hsize : f.samples.size = f.columns * f.rows) :
    (∀ row < f.rows, ∀ column < f.columns,
      row * f.columns + column < f.samples.size ∧
      (∀ dz ∈ windowSteps, ∀ dx ∈ windowSteps,
        placeBeside f.rows row dz * f.columns + placeBeside f.columns column dx
          < f.samples.size) ∧
      ((f.sample row column).valid = true →
        Single.zero < .ofUInt32 (f.tally row column).count)) ∧
    f.smoothed.IsSmoothingOf f ∧
    ∀ g : HeightField, g.AgreeOnValid f → g.smoothed.AgreeOnValid f.smoothed := by
  refine ⟨fun row hrow column hcolumn => ⟨?_, fun dz _ dx _ => ?_, ?_⟩,
    isSmoothingOf_smoothed hsize, fun g h => ?_⟩
  · exact hsize ▸ (place_div_mod hrow hcolumn).1
  · exact place_lt_of_steps hsize hrow hcolumn dz dx
  · exact zero_lt_count hrow hcolumn
  · -- The other field has the same shape, so its windows hold the same cells.
    have hsize' : g.samples.size = g.columns * g.rows := by rw [h.size, h.columns, h.rows, hsize]
    have hrows {row : Nat} (hrow : row < f.rows) : row < g.rows := h.rows ▸ hrow
    have hcolumns {column : Nat} (hcolumn : column < f.columns) : column < g.columns :=
      h.columns ▸ hcolumn
    refine ⟨h.columns, h.rows, by rw [size_smoothed, size_smoothed, h.size], ?_, ?_⟩
    · intro row hrow column hcolumn
      rw [valid_sample_smoothed hsize hrow hcolumn,
        valid_sample_smoothed hsize' (hrows hrow) (hcolumns hcolumn)]
      exact h.valid row hrow column hcolumn
    · intro row hrow column hcolumn hvalid
      rw [valid_sample_smoothed hsize hrow hcolumn] at hvalid
      have hvalid' : (g.sample row column).valid = true :=
        (h.valid row hrow column hcolumn).trans hvalid
      rw [(isSmoothingOf_smoothed hsize).averaged row hrow column hcolumn hvalid,
        (isSmoothingOf_smoothed hsize').averaged row (hrows hrow) column (hcolumns hcolumn) hvalid',
        h.heightsAt_eq hrow hcolumn]

/-- One row of three cells, the last of which is not valid and holds this height. -/
def ridge (height : Single) : HeightField :=
  ⟨3, 1, #[⟨.one, true, none⟩, ⟨⟨0x40800000⟩, true, none⟩, ⟨height, false, none⟩]⟩

/-- The first cell is in its window six times and the second one three times: the average of
one, one and four is two. -/
theorem ridge_averages : (ridge .nan).samples.size = (ridge .nan).columns * (ridge .nan).rows ∧
    ((ridge .nan).smoothed.sample 0 0).height = ⟨0x40000000⟩ ∧
    ((ridge .zero).smoothed.sample 0 0).height = ⟨0x40000000⟩ ∧
    ((ridge .nan).smoothed.sample 0 2).height = .nan := by
  obtain ⟨-, hsmooth, hagree⟩ := smoothed_averages (ridge .nan) rfl
  have hridge : (ridge .zero).AgreeOnValid (ridge .nan) := by
    refine ⟨rfl, rfl, rfl, ?_, ?_⟩ <;> decide
  have hheight : ((ridge .nan).smoothed.sample 0 0).height = ⟨0x40000000⟩ := by
    rw [hsmooth.averaged 0 (by decide) 0 (by decide) rfl]
    decide +kernel
  refine ⟨rfl, hheight, ?_, hsmooth.kept 0 (by decide) 2 (by decide) rfl⟩
  rw [(hagree _ hridge).height 0 (by decide) 0 (by decide) (by decide +kernel), hheight]

end HeightField

end Battlemap
