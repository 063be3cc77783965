import Battlemap.Proofs.Stitch.Refusal
import Battlemap.Proofs.Stitch.Side

/-!
# `Battlemap.Proofs.Stitch.Coverage`: parcels within reach lose no tile

A cell that does not land inside the destination is skipped without a word. For parcels
within reach of the origin of the world this never happens (`stitch_keeps_tiles`): the
destination spans all footprints (`Axis.fitsIn`), and `Side.FitsIn.offset_add_lt` puts
every turned cell between its ends, along either axis.

The bound is there for a reason. A row of five tiles that starts `2 ^ 24` tiles from the
origin ends, after rounding, where its fourth tile does, so the destination has four
columns and the last tile is gone (`farRow_loses_tile`).
-/

set_option autoImplicit false

namespace Battlemap

/-! ### The grid of a map that was put together -/

/-- Steps that keep the grid do so one after the other. -/
theorem grid_of_foldlM {α : Type} {step : Board → α → Except StitchError Board}
    (hstep : ∀ {b b' : Board} {a : α}, step b a = .ok b' → b'.grid = b.grid) {items : List α}
    {b b' : Board} (h : items.foldlM step b = .ok b') : b'.grid = b.grid := by
  induction items generalizing b with
  | nil =>
    cases h
    rfl
  | cons a rest ih =>
    rw [List.foldlM_cons, except_bind_eq_ok_iff] at h
    obtain ⟨mid, hmid, hrest⟩ := h
    exact (ih hrest).trans (hstep hmid)

namespace Parcel

/-- Putting down a tile does not change the grid. -/
theorem grid_of_placeTile {p : Parcel} {levelOffset : UInt32} {b b' : Board} {c : Cell}
    (h : p.placeTile levelOffset b c = .ok b') : b'.grid = b.grid := by
  rcases placeTile_cases h with ⟨rfl, -⟩ | ⟨_, _, -, -, -, -, -, rfl⟩ <;> rfl

/-- Neither does copying a parcel. -/
theorem grid_of_copyInto {p : Parcel} {b b' : Board} (h : copyInto b p = .ok b') :
    b'.grid = b.grid := by
  obtain ⟨-, hfold⟩ := copyInto_eq_ok_iff.mp h
  exact (grid_of_foldlM grid_of_placeTile hfold : b'.grid = (b.withRecords p).grid)

end Parcel

/-- The map lies on the destination of its parcels. -/
theorem destination_of_stitch {parcels : List Parcel} {b : Board} (h : stitch parcels = .ok b) :
    Parcel.destination parcels = .ok b.grid := by
  obtain ⟨g, hg, hcopied, -⟩ := exists_of_stitch h
  have hgrid : b.grid = g := grid_of_foldlM Parcel.grid_of_copyInto hcopied
  rw [hgrid]
  exact hg

/-- The grid of a map that was put together spans all footprints, and is not too large. -/
theorem spanningGrid_of_stitch {parcels : List Parcel} {b : Board} {size : Single}
    (h : stitch parcels = .ok b) (htiles : ∀ p ∈ parcels, p.board.grid.tileSize = size) :
    b.grid = Parcel.spanningGrid parcels size ∧ ¬ Parcel.TooLarge parcels size := by
  have hdestination := destination_of_stitch h
  cases parcels with
  | nil => cases hdestination
  | cons first rest =>
    rw [Parcel.destination_cons, htiles first List.mem_cons_self] at hdestination
    split at hdestination
    case h_1 => cases hdestination
    case h_2 =>
      split at hdestination
      case isTrue => cases hdestination
      case isFalse hfits => exact ⟨(Except.ok.inj hdestination).symm, hfits⟩

/-! ### Footprints along an axis -/

/-- A box around two corners is not empty. -/
theorem Box.isEmpty_ofCorners (a b : Vec3) : (Box.ofCorners a b).isEmpty = false := by
  have hx : ¬ (Box.ofCorners a b).max.x < (Box.ofCorners a b).min.x := Single.not_max_lt_min _ _
  have hy : ¬ (Box.ofCorners a b).max.y < (Box.ofCorners a b).min.y := Single.not_max_lt_min _ _
  have hz : ¬ (Box.ofCorners a b).max.z < (Box.ofCorners a b).min.z := Single.not_max_lt_min _ _
  unfold Box.isEmpty
  rw [decide_eq_false hx, decide_eq_false hy, decide_eq_false hz]
  rfl

namespace Parcel

/-- The side of the turned parcel along X. -/
def sideX (p : Parcel) : Side :=
  ⟨p.position.x, (p.rotation.size p.board.grid.width p.board.grid.height).1⟩

/-- The side of the turned parcel along Z. -/
def sideZ (p : Parcel) : Side :=
  ⟨p.position.z, (p.rotation.size p.board.grid.width p.board.grid.height).2⟩

end Parcel

/-- A coordinate of points that belongs to a side of parcels. -/
structure Axis (coordinate : Vec3 → Single) (side : Parcel → Side) : Prop where
  splat (a : Single) : coordinate (.splat a) = a
  min (u v : Vec3) : coordinate (u.min v) = (coordinate u).min (coordinate v)
  max (u v : Vec3) : coordinate (u.max v) = (coordinate u).max (coordinate v)
  footprint_min (p : Parcel) : coordinate p.footprint.min
    = (side p).position.min ((side p).far p.board.grid.tileSize)
  footprint_max (p : Parcel) : coordinate p.footprint.max
    = (side p).position.max ((side p).far p.board.grid.tileSize)

/-- The columns are counted along X. -/
theorem axis_x : Axis Vec3.x Parcel.sideX where
  splat _ := rfl
  min _ _ := rfl
  max _ _ := rfl
  footprint_min _ := rfl
  footprint_max _ := rfl

/-- The rows are counted along Z. -/
theorem axis_z : Axis Vec3.z Parcel.sideZ where
  splat _ := rfl
  min _ _ := rfl
  max _ _ := rfl
  footprint_min _ := rfl
  footprint_max _ := rfl

namespace Axis

variable {coordinate : Vec3 → Single} {side : Parcel → Side} {parcels : List Parcel}
  {size : Single} {p : Parcel}

/-- No footprint is empty, so each one takes part in the box around all of them. -/
theorem foldl_merge (h : Axis coordinate side) (parcels : List Parcel) (bounds : Box) :
    coordinate (parcels.foldl (fun bounds p => bounds.merge p.footprint) bounds).min
        = (parcels.map fun p => coordinate p.footprint.min).foldl Single.min
          (coordinate bounds.min) ∧
      coordinate (parcels.foldl (fun bounds p => bounds.merge p.footprint) bounds).max
        = (parcels.map fun p => coordinate p.footprint.max).foldl Single.max
          (coordinate bounds.max) := by
  induction parcels generalizing bounds with
  | nil => exact ⟨rfl, rfl⟩
  | cons p rest ih =>
    have hmerge : bounds.merge p.footprint
        = ⟨bounds.min.min p.footprint.min, bounds.max.max p.footprint.max⟩ :=
      if_neg (Bool.eq_false_iff.mp (Box.isEmpty_ofCorners _ _))
    rw [List.foldl_cons, List.map_cons, List.map_cons, List.foldl_cons, List.foldl_cons,
      ← h.min, ← h.max, hmerge]
    exact ih ⟨bounds.min.min p.footprint.min, bounds.max.max p.footprint.max⟩

/-- A footprint starts where its parcel does. -/
theorem footprint_low (h : Axis coordinate side)
    (hordered : (side p).position ≤ (side p).far p.board.grid.tileSize) :
    (side p).position ≤ coordinate p.footprint.min ∧
      coordinate p.footprint.min ≤ (side p).position := by
  rw [h.footprint_min]
  obtain ⟨hwhich, hle, -⟩ := Single.min_cases hordered.1 hordered.2.1
  refine ⟨?_, hle⟩
  rcases hwhich with heq | heq <;> rw [heq]
  · exact Single.le_refl hordered.1
  · exact hordered

/-- A footprint ends where its parcel does, or beyond. -/
theorem far_le_footprint (h : Axis coordinate side)
    (hordered : (side p).position ≤ (side p).far p.board.grid.tileSize) :
    (side p).far p.board.grid.tileSize ≤ coordinate p.footprint.max := by
  rw [h.footprint_max]
  exact (Single.max_cases hordered.1 hordered.2.1).2.2

/-- The low end of all footprints is infinity or that of one of them, and not above any. -/
theorem footprints_low (h : Axis coordinate side)
    (hordered : ∀ p ∈ parcels, (side p).position ≤ (side p).far p.board.grid.tileSize) :
    (coordinate (Parcel.footprints parcels).min = .infinity ∨
        ∃ p ∈ parcels, coordinate p.footprint.min = coordinate (Parcel.footprints parcels).min) ∧
      ∀ p ∈ parcels, coordinate (Parcel.footprints parcels).min ≤ (side p).position := by
  have hnumbers : ∀ a ∈ parcels.map fun p => coordinate p.footprint.min, a.isNaN = false := by
    simpa using fun p hp => (h.footprint_low (hordered p hp)).2.1
  obtain ⟨hwhich, -, hleast⟩ := Single.foldl_min Single.isNaN_infinity hnumbers
  have hmin := (h.foldl_merge parcels .empty).1
  rw [Box.empty, h.splat] at hmin
  rw [← hmin] at hwhich hleast
  refine ⟨hwhich.imp id List.mem_map.mp, ?_⟩
  intro p hp
  exact Single.le_trans (hleast _ (List.mem_map_of_mem hp)) (h.footprint_low (hordered p hp)).2

/-- No parcel ends beyond the high end of all footprints. -/
theorem far_le_footprints (h : Axis coordinate side)
    (hordered : ∀ p ∈ parcels, (side p).position ≤ (side p).far p.board.grid.tileSize)
    (hp : p ∈ parcels) :
    (side p).far p.board.grid.tileSize ≤ coordinate (Parcel.footprints parcels).max := by
  have hnumbers : ∀ a ∈ parcels.map fun p => coordinate p.footprint.max, a.isNaN = false := by
    simpa using fun p hp => (h.far_le_footprint (hordered p hp)).2.1
  obtain ⟨-, hgreatest⟩ := Single.le_foldl_max (rfl : Single.negInfinity.isNaN = false) hnumbers
  have hmax := (h.foldl_merge parcels .empty).2
  rw [Box.empty, h.splat] at hmax
  rw [← hmax] at hgreatest
  exact Single.le_trans (h.far_le_footprint (hordered p hp))
    (hgreatest _ (List.mem_map_of_mem hp))

/-- Each parcel lies between the ends of a destination that is not too large. -/
theorem fitsIn (h : Axis coordinate side) (hsize : size.isFinite = true) (hpos : 0 < size.units)
    (htiles : ∀ p ∈ parcels, p.board.grid.tileSize = size)
    (hfinite : ∀ p ∈ parcels, (side p).position.isFinite = true)
    (hfits : (Grid.tilesAlong (coordinate (Parcel.footprints parcels).max
      - coordinate (Parcel.footprints parcels).min) size).toNat ≤ Grid.dimensionLimit)
    (hp : p ∈ parcels) : (side p).FitsIn size (coordinate (Parcel.footprints parcels).min)
      (coordinate (Parcel.footprints parcels).max) := by
  have hordered : ∀ q ∈ parcels, (side q).position ≤ (side q).far q.board.grid.tileSize := by
    intro q hq
    rw [htiles q hq]
    exact Side.position_le_far (hfinite q hq) hsize hpos
  obtain ⟨hwhich, hle⟩ := h.footprints_low hordered
  have hfar := h.far_le_footprints hordered hp
  rw [htiles p hp] at hfar
  refine ⟨hfinite p hp, hsize, hpos, ?_, hle p hp, hfar, hfits⟩
  rcases hwhich with hinfinity | ⟨q, hq, heq⟩
  · -- The search does not stay at infinity, since the parcel starts below it.
    have hrank := (hle p hp).2.2
    rw [hinfinity, show Single.infinity.rank = 255 * 2 ^ 23 from rfl] at hrank
    have hposition := Single.isFinite_iff_abs_rank_lt.mp (hfinite p hp)
    rw [abs_lt] at hposition
    exact absurd hrank (not_le.mpr hposition.2)
  · rw [← heq]
    obtain ⟨hlow, hhigh⟩ := h.footprint_low (hordered q hq)
    exact Single.isFinite_of_le_of_le hlow hhigh (hfinite q hq) (hfinite q hq)

end Axis

/-! ### Cells within reach -/

namespace Parcel

variable {p : Parcel} {g : Grid} {c : Cell}

/-- The parcel is not further from the origin of the world than `Side.reach` tiles. -/
structure WithinReach (p : Parcel) : Prop where
  x : |p.position.x.units| ≤ Side.reach * p.board.grid.tileSize.units
  z : |p.position.z.units| ≤ Side.reach * p.board.grid.tileSize.units

/-- A number of columns or rows that is not too large is stored whole. -/
theorem toNat_toUInt32_of_le {n : UInt64} (h : n.toNat ≤ Grid.dimensionLimit) :
    n.toUInt32.toNat = n.toNat := by
  rw [UInt64.toNat_toUInt32]
  exact Nat.mod_eq_of_lt (h.trans_lt (by decide))

/-- A cell whose coordinates in the destination are inside lands there. -/
theorem exists_landsOn (hc : ∃ tile, p.board.tile? c = some tile ∧ tile.levelCount ≠ 0)
    {x z : ℕ} (hx : (x : ℤ) = axisOffset p.position.x g.origin.x g.tileSize
      + (p.rotation.cell p.board.grid.width p.board.grid.height c).x.toNat)
    (hz : (z : ℤ) = axisOffset p.position.z g.origin.z g.tileSize
      + (p.rotation.cell p.board.grid.width p.board.grid.height c).z.toNat)
    (hwidth : x < g.width.toNat) (hheight : z < g.height.toNat) :
    ∃ d, p.LandsOn g c d ∧ g.contains d = true := by
  have hxlt := hwidth.trans g.width.toNat_lt
  have hzlt := hheight.trans g.height.toNat_lt
  have hxNat : x.toUInt32.toNat = x := UInt32.toNat_ofNat_of_lt' hxlt
  have hzNat : z.toUInt32.toNat = z := UInt32.toNat_ofNat_of_lt' hzlt
  refine ⟨⟨x.toUInt32, z.toUInt32⟩, ⟨hc, ?_, ?_⟩, ?_⟩
  · rw [hxNat, hx, axisOffset]
  · rw [hzNat, hz, axisOffset]
  · rw [Grid.contains_iff, hxNat, hzNat]
    exact ⟨hwidth, hheight⟩

end Parcel

section Stitching

variable {parcels : List Parcel} {b : Board} {size : Single}

/-- Every cell with levels of a parcel within reach lands inside the destination. -/
theorem exists_landsOn_of_stitch (h : stitch parcels = .ok b) (hsize : size.isFinite = true)
    (hpos : 0 < size.units) (htiles : ∀ p ∈ parcels, p.board.grid.tileSize = size)
    (hfinite : ∀ p ∈ parcels, p.position.x.isFinite = true ∧ p.position.z.isFinite = true)
    {p : Parcel} (hp : p ∈ parcels) (hreach : p.WithinReach) {c : Cell}
    (hc : ∃ tile, p.board.tile? c = some tile ∧ tile.levelCount ≠ 0) :
    ∃ d, p.LandsOn b.grid c d ∧ b.grid.contains d = true := by
  obtain ⟨hgrid, hfits⟩ := spanningGrid_of_stitch h htiles
  obtain ⟨hwidth, hheight⟩ := not_or.mp hfits
  rw [not_lt] at hwidth hheight
  have hx := axis_x.fitsIn hsize hpos htiles (fun p hp => (hfinite p hp).1) hwidth hp
  have hz := axis_z.fitsIn hsize hpos htiles (fun p hp => (hfinite p hp).2) hheight hp
  -- The turned cell is one of the tiles of both sides.
  have hcell : p.board.grid.contains c = true := by
    obtain ⟨tile, htile, -⟩ := hc
    exact Board.contains_of_tile? htile
  rw [Grid.contains_iff] at hcell
  obtain ⟨hcolumn, hrow⟩ := p.rotation.cell_lt hcell.1 hcell.2
  have hreachX := hreach.x
  have hreachZ := hreach.z
  rw [htiles p hp] at hreachX hreachZ
  have hltX := hx.offset_add_lt hreachX hcolumn
  have hltZ := hz.offset_add_lt hreachZ hrow
  obtain ⟨x, hxNat⟩ := Int.eq_ofNat_of_zero_le (Int.add_nonneg hx.offset_le.1
    (Int.natCast_nonneg (p.rotation.cell p.board.grid.width p.board.grid.height c).x.toNat))
  obtain ⟨z, hzNat⟩ := Int.eq_ofNat_of_zero_le (Int.add_nonneg hz.offset_le.1
    (Int.natCast_nonneg (p.rotation.cell p.board.grid.width p.board.grid.height c).z.toNat))
  rw [hxNat] at hltX
  rw [hzNat] at hltZ
  -- Both sums are below the numbers of columns and rows, which are stored whole.
  rw [hgrid]
  refine Parcel.exists_landsOn hc hxNat.symm hzNat.symm ?_ ?_
  · show x < (Parcel.neededSize parcels size).1.toUInt32.toNat
    rw [Parcel.toNat_toUInt32_of_le hwidth]
    exact_mod_cast hltX
  · show z < (Parcel.neededSize parcels size).2.toUInt32.toNat
    rw [Parcel.toNat_toUInt32_of_le hheight]
    exact_mod_cast hltZ

/-- A map that is put together from parcels of one tile size keeps all tiles with levels of
each parcel that is within reach: they land inside the map, and, as long as levels and data
can be counted, their levels are stored in the tile that they land on. -/
theorem stitch_keeps_tiles (h : stitch parcels = .ok b) (hsize : size.isFinite = true)
    (hpos : Single.zero < size) (htiles : ∀ p ∈ parcels, p.board.grid.tileSize = size)
    (hfinite : ∀ p ∈ parcels, p.position.x.isFinite = true ∧ p.position.z.isFinite = true)
    {p : Parcel} (hp : p ∈ parcels) (hreach : p.WithinReach) {c : Cell} {source : Tile}
    (hsource : p.board.tile? c = some source) (hne : source.levelCount ≠ 0) :
    ∃ d, p.LandsOn b.grid c d ∧ b.grid.contains d = true ∧
      ((parcels.map fun p => p.board.levels.size).sum < UInt32.size →
        (parcels.map fun p => p.board.data.size).sum < UInt32.size →
        ∃ target, b.tile? d = some target ∧ p.StoredAt b source target) := by
  have hunits : 0 < size.units := by
    have hnot : ¬ size ≤ Single.zero := fun hle => absurd hpos.2.2 (not_lt.mpr hle.2.2)
    rw [Single.le_iff_units_le hsize rfl, not_le] at hnot
    exact hnot
  obtain ⟨d, hlands, hd⟩ :=
    exists_landsOn_of_stitch h hsize hunits htiles hfinite hp hreach ⟨source, hsource, hne⟩
  refine ⟨d, hlands, hd, ?_⟩
  intro hlevels hdata
  -- Where a cell lands inside the map its levels are stored. Only here do levels and data have to
  -- be countable.
  obtain ⟨hfilled, -⟩ := Filled.of_stitch h hlevels hdata
  obtain ⟨i, hi⟩ := List.mem_iff_getElem?.mp hp
  obtain ⟨source', target, hsource', htarget, hstored⟩ := hfilled.stored trivial hi hd hlands
  cases hsource.symm.trans hsource'
  exact ⟨target, htarget, hstored⟩

end Stitching

/-- The row of two tiles, one tile from the origin. -/
def nearRow : Parcel := ⟨tileRow, ⟨.one, .zero, .zero⟩, .none, 7⟩

/-- What the near row is stitched to. -/
def nearRowMap : Board := (stitch [nearRow]).toOption.getD default

/-- A row of tiles near the origin is within reach, and keeps its floor. -/
theorem nearRow_keeps_tile :
    stitch [nearRow] = .ok nearRowMap ∧ nearRow.WithinReach ∧
      ∃ d target, nearRowMap.grid.contains d = true ∧ nearRowMap.tile? d = some target ∧
        nearRow.StoredAt nearRowMap ⟨1, 0⟩ target := by
  have hb : stitch [nearRow] = .ok nearRowMap := by decide +kernel
  have htiles : ∀ p ∈ [nearRow], p.board.grid.tileSize = .one := by decide
  have hreach : nearRow.WithinReach := ⟨by decide +kernel, by decide +kernel⟩
  have hsource : nearRow.board.tile? ⟨1, 0⟩ = some ⟨1, 0⟩ := rfl
  obtain ⟨d, -, hd, hstored⟩ := stitch_keeps_tiles hb rfl (by decide) htiles (by decide)
    List.mem_cons_self hreach hsource (by decide)
  obtain ⟨target, htarget, hstored⟩ := hstored (by decide) (by decide)
  exact ⟨hb, hreach, d, target, hd, htarget, hstored⟩

/-- A row of five tiles, of which the last one has a floor. -/
def longRow : Board where
  grid := ⟨5, 1, .one, .zero, .zero, .one⟩
  payloadSize := 1
  tiles := #[⟨0, 0⟩, ⟨0, 0⟩, ⟨0, 0⟩, ⟨0, 0⟩, ⟨1, 0⟩]
  levels := #[⟨.facingUp .one, .invalid, .one, .infinity, 0, 0⟩]
  data := #[⟨LevelHeader.plain, [7]⟩]

/-- The row at `2 ^ 24` tiles from the origin, beyond reach. -/
def farRow : Parcel := ⟨longRow, ⟨⟨0x4b800000⟩, .zero, .zero⟩, .none, 7⟩

/-- What the far row is stitched to. -/
def farRowMap : Board := (stitch [farRow]).toOption.getD default

/-- The far row is stitched without an error, and its only tile with levels is lost. -/
theorem farRow_loses_tile :
    stitch [farRow] = .ok farRowMap ∧
      Board.ofParts longRow.grid longRow.payloadSize longRow.tiles longRow.levels longRow.data
        = .ok longRow ∧
      farRow.position.x.isFinite = true ∧ farRow.position.y.isFinite = true ∧
      farRow.position.z.isFinite = true ∧
      longRow.tile? ⟨4, 0⟩ = some ⟨1, 0⟩ ∧
      (∀ d, farRowMap.grid.contains d = true → ¬ farRow.LandsOn farRowMap.grid ⟨4, 0⟩ d) ∧
      ∀ tile ∈ farRowMap.tiles, tile.levelCount = 0 := by
  refine ⟨by decide +kernel, rfl, rfl, rfl, rfl, rfl, ?_, by decide +kernel⟩
  intro d hd hlands
  have hx := hlands.x
  have hcolumn : ((farRow.position.x - farRowMap.grid.origin.x)
      / farRowMap.grid.tileSize).round.toInt64.toInt + (farRow.rotation.cell
        farRow.board.grid.width farRow.board.grid.height ⟨4, 0⟩).x.toNat = 4 := by decide +kernel
  have hwidth : farRowMap.grid.width.toNat = 4 := by decide +kernel
  have hlt := (Grid.contains_iff.mp hd).1
  omega

end Battlemap
