import Battlemap.Proofs.Number.Order
import Battlemap.Proofs.Number.Whole
import Battlemap.Stitch.Composition

/-!
# `Battlemap.Proofs.Stitch.Side`: one axis of a parcel in a grid

Along an axis, the destination of a parcel is computed twice. Its number of tiles comes
from the quotient of the rounded extent and the tile size, going up to a whole number; the
offset of a parcel is the quotient of the rounded distance and the tile size, going to the
nearest whole number. `Side.FitsIn` collects what is known of one parcel in a destination
that was not refused, and `Side.FitsIn.offset_add_lt` says that its tiles are inside.

The two computations only agree where rounding leaves room for it. The far end of a parcel
is rounded like all coordinates, so far from the origin it can move by whole tiles. Within
`Side.reach` tiles of the origin it moves by less than a half (`FitsIn.far_error`), and the
other operations move little, since they are about lengths inside the grid
(`quotient_error`). With one half for the rounded offset, the sum stays below one tile.
-/

set_option autoImplicit false

namespace Battlemap

/-! ### Lengths in tiles -/

section Tiles

variable {size : Single}

/-- A coordinate in tiles, without rounding. -/
def inTiles (size a : Single) : ℚ := a.units / size.units

/-- A coordinate is its number of tiles times the tile size. -/
theorem units_eq_inTiles_mul (hpos : 0 < size.units) (a : Single) :
    (a.units : ℚ) = inTiles size a * size.units := by
  have hne : (size.units : ℚ) ≠ 0 := by exact_mod_cast hpos.ne'
  exact (div_mul_cancel₀ _ hne).symm

/-- Coordinates in tiles are ordered as the coordinates are. -/
theorem inTiles_le_inTiles (hpos : 0 < size.units) {a b : Single} (h : a.units ≤ b.units) :
    inTiles size a ≤ inTiles size b := by
  have hpos' : (0 : ℚ) < size.units := by exact_mod_cast hpos
  unfold inTiles
  gcongr

/-- A rounded distance divided by the tile size and rounded again is the distance in tiles,
up to a small part of it. -/
theorem quotient_error (hsize : size.isFinite = true) (hpos : 0 < size.units) {a b : Single}
    (ha : a.isFinite = true) (hb : b.isFinite = true) (hle : b.units ≤ a.units)
    (hdistance : (a - b).isFinite = true) (hquotient : ((a - b) / size).isFinite = true) :
    |(((a - b) / size).units : ℚ) / 2 ^ 149 - (inTiles size a - inTiles size b)|
      ≤ 3 * (inTiles size a - inTiles size b) / 2 ^ 24 + 1 / 2 ^ 150 := by
  have hpos' : (0 : ℚ) < size.units := by exact_mod_cast hpos
  have hunits : (a.units : ℚ) - b.units = (inTiles size a - inTiles size b) * size.units := by
    rw [sub_mul, ← units_eq_inTiles_mul hpos, ← units_eq_inTiles_mul hpos]
  have hnonneg : 0 ≤ inTiles size a - inTiles size b :=
    sub_nonneg.mpr (inTiles_le_inTiles hpos hle)
  generalize inTiles size a - inTiles size b = u at *
  have hdifference := Single.isNearest_sub ha hb
  rw [← Int.cast_sub] at hdifference
  have hfirst := hdifference.abs_units_sub_le hdistance
  rw [Int.cast_sub, hunits, abs_of_nonneg (by positivity : 0 ≤ u * size.units)] at hfirst
  -- In tiles, the first rounding moves the distance by a small part of it.
  have hfirst' : |inTiles size (a - b) - u| ≤ u / 2 ^ 24 := by
    rw [units_eq_inTiles_mul hpos, ← sub_mul, abs_mul, abs_of_pos hpos',
      mul_div_right_comm] at hfirst
    exact le_of_mul_le_mul_right hfirst hpos'
  have hsecond := (Single.isNearest_div hdistance hsize hpos.ne').error hquotient
  change |_ - inTiles size (a - b) * 2 ^ 149| ≤ _ ∨ |_ - inTiles size (a - b) * 2 ^ 149|
    ≤ |inTiles size (a - b) * 2 ^ 149| / 2 ^ 24 at hsecond
  generalize inTiles size (a - b) = v at *
  generalize (((a - b) / size).units : ℚ) = w at *
  rw [abs_le] at hfirst' ⊢
  have hv : |v * 2 ^ 149| ≤ (u + u / 2 ^ 24) * 2 ^ 149 := by
    have hv' : |v| ≤ u + u / 2 ^ 24 := by
      rw [abs_le]
      constructor <;> linarith
    rw [abs_mul, abs_of_pos (by positivity : (0 : ℚ) < 2 ^ 149)]
    gcongr
  rcases hsecond with hsecond | hsecond <;> rw [abs_le] at hsecond <;> constructor <;> linarith

/-- A quotient that is not too large is covered by the number of tiles made of it. -/
theorem Grid.units_le_tilesAlong {length : Single} (hquotient : (length / size).isFinite = true)
    (hfits : (Grid.tilesAlong length size).toNat ≤ Grid.dimensionLimit) :
    ((length / size).units : ℚ) / 2 ^ 149 ≤ (Grid.tilesAlong length size).toNat := by
  unfold Grid.tilesAlong at hfits ⊢
  have hceil := Single.isWhole_ceil hquotient
  have hle := Single.units_le_units_ceil hquotient
  obtain ⟨hwhich, hleft, hright⟩ := Single.max_cases
    (Single.isNaN_of_isFinite hceil.isFinite) (b := .one) rfl
  generalize (length / size).ceil.max .one = count at *
  -- One is a whole number as well as the ceiling is.
  have hwhole : count.IsWhole := by
    rcases hwhich with rfl | rfl
    · exact hceil
    · exact ⟨rfl, Dvd.intro 1 rfl⟩
  have hceil' := (Single.le_iff_units_le hceil.isFinite hwhole.isFinite).mp hleft
  have hone := (Single.le_iff_units_le (a := .one) rfl hwhole.isFinite).mp hright
  rw [show Single.one.units = 2 ^ 149 from rfl] at hone
  have htoNat := Single.toNat_toUInt64 hwhole.isFinite (by omega)
  obtain ⟨n, hn⟩ := hwhole.dvd
  rw [hn, Int.mul_ediv_cancel_left _ (by norm_num)] at htoNat
  have hcount : (count.toUInt64.toNat : ℤ) = n := by
    unfold Grid.dimensionLimit at hfits
    omega
  rw [div_le_iff₀ (by positivity), ← Int.cast_natCast, hcount]
  exact_mod_cast (by omega : (length / size).units ≤ n * 2 ^ 149)

/-- An infinite quotient is too large. -/
theorem Grid.lt_tilesAlong_of_infinity {length : Single} (h : length / size = .infinity) :
    Grid.dimensionLimit < (Grid.tilesAlong length size).toNat := by
  unfold Grid.tilesAlong
  rw [h]
  decide +kernel

end Tiles

/-! ### One side of a parcel -/

/-- How a parcel lies along an axis: where it starts, and how many tiles it has there. -/
structure Side where
  position : Single
  count : UInt32

namespace Side

variable {s : Side} {size low high : Single}

/-- Where the parcel ends. -/
def far (s : Side) (size : Single) : Single := s.position + .ofUInt32 s.count * size

/-- The length of the parcel is the single nearest to some number of units. -/
theorem isNearest_length (s : Side) (hsize : size.isFinite = true) :
    (Single.ofUInt32 s.count * size).IsNearest
      ((Single.ofUInt32 s.count).units * size.units / 2 ^ 149) :=
  Single.isNearest_mul (Single.isFinite_ofUInt32 s.count) hsize

/-- A count is not negative as a single. -/
theorem units_ofUInt32_nonneg (n : UInt32) : 0 ≤ (Single.ofUInt32 n).units :=
  (Single.isNearest_ofUInt32 n).units_nonneg (Single.isFinite_ofUInt32 n) (by positivity)

/-- The length of a parcel is not negative. -/
theorem length_nonneg (s : Side) (hpos : 0 < size.units) :
    (0 : ℚ) ≤ (Single.ofUInt32 s.count).units * size.units / 2 ^ 149 := by
  have hcount := units_ofUInt32_nonneg s.count
  positivity

/-- A parcel does not end before it starts, even where its far end is infinite. -/
theorem position_le_far (hposition : s.position.isFinite = true) (hsize : size.isFinite = true)
    (hpos : 0 < size.units) : s.position ≤ s.far size := by
  have hlength := s.isNearest_length hsize
  have hnonneg := s.length_nonneg hpos
  unfold far
  cases hfinite : (Single.ofUInt32 s.count * size).isFinite with
  | true =>
    refine (Single.isNearest_units hposition).le (Single.isNearest_add hposition hfinite) ?_
    have hunits := hlength.units_nonneg hfinite hnonneg
    exact_mod_cast Int.le_add_of_nonneg_right hunits
  | false =>
    rw [hlength.eq_infinity hnonneg hfinite, Single.add_infinity hposition]
    exact Single.le_infinity (Single.isNaN_of_isFinite hposition)

/-- The side lies between the ends of a grid that is not too large. -/
structure FitsIn (s : Side) (size low high : Single) : Prop where
  finite_position : s.position.isFinite = true
  finite_size : size.isFinite = true
  size_pos : 0 < size.units
  finite_low : low.isFinite = true
  low_le : low ≤ s.position
  far_le : s.far size ≤ high
  fits : (Grid.tilesAlong (high - low) size).toNat ≤ Grid.dimensionLimit

/-- How many tiles from the origin of the world a position may be. The far end is rounded
by less than one half of a tile up to about `2 ^ 23` tiles, and the other operations need
some room, too. -/
def reach : ℕ := 7 * 2 ^ 20

namespace FitsIn

/-- A parcel does not start behind the far end of the grid. -/
theorem position_le (h : s.FitsIn size low high) : s.position ≤ high :=
  Single.le_trans (position_le_far h.finite_position h.finite_size h.size_pos) h.far_le

/-! ### Everything is finite -/

/-- An infinite end would make the extent infinite. -/
theorem finite_high (h : s.FitsIn size low high) : high.isFinite = true := by
  rw [← Bool.not_eq_false]
  intro hinfinite
  have hle := Single.le_trans h.low_le h.position_le
  -- Above a finite number only infinity is not finite.
  have hrank : 0 ≤ high.rank := by
    have hlow := Single.isFinite_iff_abs_rank_lt.mp h.finite_low
    have hhigh := mt Single.isFinite_iff_abs_rank_lt.mpr (Bool.eq_false_iff.mp hinfinite)
    have hrank := hle.2.2
    rw [abs_lt] at hlow hhigh
    omega
  refine h.fits.not_gt (Grid.lt_tilesAlong_of_infinity ?_)
  rw [Single.eq_infinity_of_not_isFinite hle.2.1 hrank hinfinite, Single.infinity_sub h.finite_low,
    Single.infinity_div h.finite_size h.size_pos]

/-- It does not start before the near end. -/
theorem units_low_le (h : s.FitsIn size low high) : low.units ≤ s.position.units :=
  (Single.le_iff_units_le h.finite_low h.finite_position).mp h.low_le

/-- Neither does it start behind the far end as a number of units. -/
theorem units_position_le (h : s.FitsIn size low high) : s.position.units ≤ high.units :=
  (Single.le_iff_units_le h.finite_position h.finite_high).mp h.position_le

/-- A parcel ends at a finite coordinate. -/
theorem finite_far (h : s.FitsIn size low high) : (s.far size).isFinite = true :=
  Single.isFinite_of_le_of_le (position_le_far h.finite_position h.finite_size h.size_pos) h.far_le
    h.finite_position h.finite_high

/-- The extent of the grid. -/
theorem isNearest_extent (h : s.FitsIn size low high) :
    (high - low).IsNearest (high.units - low.units) :=
  Single.isNearest_sub h.finite_high h.finite_low

/-- The grid has no negative extent. -/
theorem extent_nonneg (h : s.FitsIn size low high) : (0 : ℚ) ≤ high.units - low.units := by
  have hle := h.units_low_le.trans h.units_position_le
  exact sub_nonneg.mpr (by exact_mod_cast hle)

/-- The extent is not infinite, since its quotient would be, too. -/
theorem finite_extent (h : s.FitsIn size low high) : (high - low).isFinite = true := by
  rw [← Bool.not_eq_false]
  intro hinfinite
  refine h.fits.not_gt (Grid.lt_tilesAlong_of_infinity ?_)
  rw [h.isNearest_extent.eq_infinity h.extent_nonneg hinfinite,
    Single.infinity_div h.finite_size h.size_pos]

/-- A rounded length divided by the tile size. -/
theorem isNearest_quotient (h : s.FitsIn size low high) {length : Single}
    (hlength : length.isFinite = true) :
    (length / size).IsNearest (length.units / size.units * 2 ^ 149) :=
  Single.isNearest_div hlength h.finite_size h.size_pos.ne'

/-- A length that is not negative is no negative number of tiles. -/
theorem quotient_nonneg (h : s.FitsIn size low high) {length : Single} (hunits : 0 ≤ length.units) :
    (0 : ℚ) ≤ length.units / size.units * 2 ^ 149 := by
  have hpos := h.size_pos
  positivity

/-- The extent is a finite number of tiles. -/
theorem finite_extent_div (h : s.FitsIn size low high) :
    ((high - low) / size).isFinite = true := by
  have hunits := h.isNearest_extent.units_nonneg h.finite_extent h.extent_nonneg
  rw [← Bool.not_eq_false]
  intro hinfinite
  refine h.fits.not_gt (Grid.lt_tilesAlong_of_infinity ?_)
  exact (h.isNearest_quotient h.finite_extent).eq_infinity (h.quotient_nonneg hunits) hinfinite

/-- How far the parcel is from the low end of the grid. -/
theorem isNearest_distance (h : s.FitsIn size low high) :
    (s.position - low).IsNearest (s.position.units - low.units) :=
  Single.isNearest_sub h.finite_position h.finite_low

/-- The way from the near end to the parcel is not negative. -/
theorem distance_nonneg (h : s.FitsIn size low high) :
    (0 : ℚ) ≤ s.position.units - low.units :=
  sub_nonneg.mpr (by exact_mod_cast h.units_low_le)

/-- That way is no longer than the grid. -/
theorem distance_le_extent (h : s.FitsIn size low high) : s.position - low ≤ high - low :=
  h.isNearest_distance.le h.isNearest_extent
    (sub_le_sub_right (by exact_mod_cast h.units_position_le) _)

/-- That way is finite, as the grid is. -/
theorem finite_distance (h : s.FitsIn size low high) : (s.position - low).isFinite = true :=
  Single.isFinite_of_le_of_le (h.isNearest_distance.zero_le h.distance_nonneg)
    h.distance_le_extent rfl h.finite_extent

/-- Rounding does not make it negative. -/
theorem units_distance_nonneg (h : s.FitsIn size low high) : 0 ≤ (s.position - low).units :=
  h.isNearest_distance.units_nonneg h.finite_distance h.distance_nonneg

/-- It is a finite number of tiles. -/
theorem finite_distance_div (h : s.FitsIn size low high) :
    ((s.position - low) / size).isFinite = true :=
  Single.isFinite_of_le_of_le
    ((h.isNearest_quotient h.finite_distance).zero_le (h.quotient_nonneg h.units_distance_nonneg))
    (Single.div_le_div h.finite_distance h.finite_extent h.finite_size h.size_pos
      h.distance_le_extent)
    rfl h.finite_extent_div

/-! ### The far end, the extent and the offset -/

/-- Rounding the length of `t` tiles loses a small part of it, and the tiles behind them
do not make it less. -/
theorem length_error (h : s.FitsIn size low high) {t : ℕ} (hcount : t ≤ s.count.toNat)
    (ht : t ≤ 2 ^ 16) : (t : ℚ) * size.units - t * size.units / 2 ^ 24
      ≤ (Single.ofUInt32 s.count * size).units := by
  have hpos : (0 : ℚ) < size.units := by exact_mod_cast h.size_pos
  have hlength : (Single.ofUInt32 s.count * size).isFinite = true :=
    (Single.isFinite_of_isFinite_add h.finite_far).2
  -- The number of tiles may be rounded, but not to less than `t`.
  have hcounted : (t : ℤ) * 2 ^ 149 ≤ (Single.ofUInt32 s.count).units := by
    refine (Single.isNearest_ofUInt32 s.count).le_units_of_short (Single.isFinite_ofUInt32 _)
      (ht.trans (by norm_num)) ?_
    gcongr
  have hexact : ((t * size.units : ℤ) : ℚ)
      ≤ (Single.ofUInt32 s.count).units * size.units / 2 ^ 149 := by
    have hcounted' : (t : ℚ) * 2 ^ 149 ≤ (Single.ofUInt32 s.count).units := by
      exact_mod_cast hcounted
    rw [le_div_iff₀ (by positivity)]
    push_cast
    calc (t : ℚ) * (size.units : ℚ) * 2 ^ 149 = t * 2 ^ 149 * (size.units : ℚ) := by ring
      _ ≤ ((Single.ofUInt32 s.count).units : ℚ) * (size.units : ℚ) := by gcongr
  have hlow := (s.isNearest_length h.finite_size).sub_le_units hlength hexact
  push_cast at hlow
  rwa [abs_of_nonneg (by positivity)] at hlow

/-- Within reach, rounding moves the far end back by less than one half of a tile. -/
theorem far_error (h : s.FitsIn size low high) {t : ℕ} (hcount : t ≤ s.count.toNat)
    (ht : t ≤ 2 ^ 16) (hreach : |s.position.units| ≤ reach * size.units) :
    inTiles size s.position + t - (7 / 16 + 1 / 128) ≤ inTiles size (s.far size) := by
  have hpos : (0 : ℚ) < size.units := by exact_mod_cast h.size_pos
  have hlength := h.length_error hcount ht
  have hsum := Single.isNearest_add h.finite_position
    (Single.isFinite_of_isFinite_add h.finite_far).2
  rw [← Int.cast_add] at hsum
  have hlow := (abs_le.mp (hsum.abs_units_sub_le h.finite_far)).1
  have hpositioned : |(s.position.units : ℚ)| ≤ reach * size.units := by exact_mod_cast hreach
  have ht' : (t : ℚ) ≤ 2 ^ 16 := by exact_mod_cast ht
  -- The error is that of the exact far end, which is within reach, too.
  have hmono := Single.sub_abs_div_le
    (x := s.position.units + ((t : ℚ) * size.units - t * size.units / 2 ^ 24))
    (z := (s.position.units + (Single.ofUInt32 s.count * size).units : ℤ))
    (by push_cast; linarith)
  have hend : |(s.position.units : ℚ) + ((t : ℚ) * size.units - t * size.units / 2 ^ 24)|
      ≤ ((reach : ℚ) + 2 ^ 16) * size.units := by
    have htiles : (t : ℚ) * size.units ≤ 2 ^ 16 * size.units := by gcongr
    have hsmall : (0 : ℚ) ≤ t * size.units := by positivity
    rw [abs_le] at hpositioned ⊢
    constructor <;> linarith
  have hunits : (s.position.units : ℚ) + t * size.units - (7 / 16 + 1 / 128) * size.units
      ≤ (s.far size).units := by
    have htiles : (t : ℚ) * size.units ≤ 2 ^ 16 * size.units := by gcongr
    unfold far reach at *
    push_cast at *
    linarith
  rw [units_eq_inTiles_mul h.size_pos s.position, units_eq_inTiles_mul h.size_pos (s.far size),
    ← add_mul, ← sub_mul] at hunits
  exact le_of_mul_le_mul_right hunits hpos

/-- The number of tiles covers the extent, up to a small part of it. -/
theorem extent_le (h : s.FitsIn size low high) :
    (inTiles size high - inTiles size low)
      ≤ (Grid.tilesAlong (high - low) size).toNat + 1 / 64 := by
  have herror := (abs_le.mp (quotient_error h.finite_size h.size_pos h.finite_high h.finite_low
    (h.units_low_le.trans h.units_position_le) h.finite_extent h.finite_extent_div)).1
  have hcovers := Grid.units_le_tilesAlong h.finite_extent_div h.fits
  have hlimit : ((Grid.tilesAlong (high - low) size).toNat : ℚ) ≤ 65535 := by
    exact_mod_cast h.fits
  linarith

/-- The offset of the parcel is its distance in tiles, up to one half and a small part. -/
theorem offset_le (h : s.FitsIn size low high) :
    0 ≤ Parcel.axisOffset s.position low size ∧
      (Parcel.axisOffset s.position low size : ℚ)
        ≤ inTiles size s.position - inTiles size low + 1 / 2 + 1 / 64 := by
  have hnonneg := (h.isNearest_quotient h.finite_distance).units_nonneg h.finite_distance_div
    (h.quotient_nonneg h.units_distance_nonneg)
  have hrounded := Single.units_round_nonneg h.finite_distance_div hnonneg
  have hhalf := (Single.units_round_bounds h.finite_distance_div).2
  have hwhole := Single.isWhole_round h.finite_distance_div
  have herror := (abs_le.mp (quotient_error h.finite_size h.size_pos h.finite_position h.finite_low
    h.units_low_le h.finite_distance h.finite_distance_div)).2
  unfold Parcel.axisOffset
  rw [Single.toInt_toInt64 hwhole.isFinite hrounded]
  obtain ⟨n, hn⟩ := hwhole.dvd
  rw [hn] at hrounded hhalf ⊢
  rw [Int.mul_ediv_cancel_left _ (by norm_num)]
  refine ⟨by omega, ?_⟩
  -- The distance is not more than the extent, so its part is as small.
  have hdistance : inTiles size s.position - inTiles size low ≤ 65536 := by
    have hle := inTiles_le_inTiles h.size_pos h.units_position_le
    have hextent := h.extent_le
    have hlimit : ((Grid.tilesAlong (high - low) size).toNat : ℚ) ≤ 65535 := by
      exact_mod_cast h.fits
    linarith
  have hn' : (n : ℚ) ≤ ((s.position - low) / size).units / 2 ^ 149 + 1 / 2 := by
    have hhalf' : 2 * (2 ^ 149 * (n : ℚ)) ≤ 2 * ((s.position - low) / size).units + 2 ^ 149 := by
      exact_mod_cast hhalf
    linarith
  have hmin : ((min (2 ^ 63 - 1) n : ℤ) : ℚ) ≤ n := Int.cast_le.mpr (min_le_right _ _)
  refine hmin.trans ?_
  linarith

/-- The tiles of a parcel within reach are inside a grid that is not too large. -/
theorem offset_add_lt (h : s.FitsIn size low high)
    (hreach : |s.position.units| ≤ reach * size.units) {t : ℕ} (ht : t < s.count.toNat) :
    Parcel.axisOffset s.position low size + t < (Grid.tilesAlong (high - low) size).toNat := by
  -- The bounds hold for as many tiles as a grid may have; what is beyond would not fit.
  have hinside (tiles : ℕ) (hcount : tiles ≤ s.count.toNat) (htiles : tiles ≤ 2 ^ 16) :
      Parcel.axisOffset s.position low size + tiles
        ≤ (Grid.tilesAlong (high - low) size).toNat := by
    have hfar := h.far_error hcount htiles hreach
    have hhigh := inTiles_le_inTiles h.size_pos
      ((Single.le_iff_units_le h.finite_far h.finite_high).mp h.far_le)
    have hextent := h.extent_le
    have hoffset := h.offset_le.2
    have hlt : (Parcel.axisOffset s.position low size : ℚ) + tiles
        < (Grid.tilesAlong (high - low) size).toNat + 1 := by
      linarith
    exact Int.lt_add_one_iff.mp (by exact_mod_cast hlt)
  have hfits : ((Grid.tilesAlong (high - low) size).toNat : ℤ) ≤ 65535 := by
    exact_mod_cast h.fits
  have hnonneg := h.offset_le.1
  rcases le_or_gt (t + 1) (2 ^ 16) with hfew | hmany
  · have hlast := hinside (t + 1) ht hfew
    omega
  · have hlast := hinside (2 ^ 16) (by omega) le_rfl
    omega

end FitsIn

end Side

end Battlemap
