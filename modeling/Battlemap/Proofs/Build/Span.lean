import Battlemap.Proofs.Build.LevelOrder
import Battlemap.Proofs.Build.WellPacked
import Battlemap.Proofs.Number.Error

/-!
# `Battlemap.Proofs.Build.Span`: when a level ends above its start

A level starts at the lowest of its smoothed floors and ends at the highest of its smoothed
ceilings. Its roof is the difference, and no rounding changes the sign of that
(`Single.zero_le_sub_iff`). So a level with a roof is upright exactly if it ends at or above
its start (`Layer.zero_le_roofDelta_iff`); a level without one, and a slab, always is.

Along a ray the ceiling is not below the floor, but floors and ceilings are accepted
separately, and smoothing mixes in what the next tile accepts. A ray braces a level if it is
accepted on both sides, and around it the same rays are (`Builder.Braced`). There the
averages are in order, so one such ray makes the level upright
(`Builder.startAt_le_endAt`). Without one it can end below its start
(`Builder.kerb_level_inverted`).
-/

set_option autoImplicit false

namespace Battlemap

namespace Layer

/-! ### Highest points -/

/-- A level ends at the greatest of the smoothed heights of its ceiling, or at the greatest
height that was sampled if none of them is a number. -/
theorem highest_eq (f : HeightField) (c : Cell) (tileSize : Single) (statistics : LayerStatistics) :
    highest (.of f c tileSize statistics.ceiling) statistics
      = finiteOr (Single.greatest (heightsOf f c)) statistics.ceilingMax := by
  rw [highest, LayerSide.of, LayerSide.ofSamples, Single.greatest, heightsOf]
  dsimp only
  rw [List.foldl_map, List.foldl_map]
  rfl

/-- A height that falls back on a number is a number. -/
theorem isNaN_finiteOr {height fallback : Single} (h : fallback.isNaN = false) :
    (finiteOr height fallback).isNaN = false := by
  unfold finiteOr
  split
  case isTrue hfinite => exact Single.isNaN_of_isFinite hfinite
  case isFalse => exact h

/-- The end of a level is a number. -/
theorem isNaN_highest (ceiling : LayerSide) (minNormalY : Single) (t : SampledTile) (i : Nat) :
    (highest ceiling (.of minNormalY t i)).isNaN = false := by
  refine isNaN_finiteOr ?_
  show (List.foldl (fun (high : Single) (f : Fragment) => high.max f.height) Single.negInfinity
    (t.slot (2 * i + 1))).isNaN = false
  rw [← List.foldl_map (f := Fragment.height) (g := Single.max)]
  exact Single.isNaN_foldl_max rfl

/-- If the floor of a ray is not above its ceiling then the level does not end below its
start. -/
theorem lowest_le_highest {f g : HeightField} {c : Cell} (tileSize : Single)
    (statistics : LayerStatistics) {n : Nat} (hn : n < raysPerTile)
    (hbelow : (tileSample f c n).Below (tileSample g c n))
    (hvalid : (tileSample g c n).valid = true)
    (hf : ∀ a ∈ heightsOf f c, a.isFinite = true) (hg : ∀ a ∈ heightsOf g c, a.isFinite = true) :
    lowest (.of f c tileSize statistics.floor) statistics
      ≤ highest (.of g c tileSize statistics.ceiling) statistics := by
  have hfloor : (tileSample f c n).height ∈ heightsOf f c :=
    mem_heightsOf.mpr ⟨n, hn, hbelow.valid.trans hvalid, rfl⟩
  have hceiling : (tileSample g c n).height ∈ heightsOf g c :=
    mem_heightsOf.mpr ⟨n, hn, hvalid, rfl⟩
  rw [lowest_eq, highest_eq, finiteOr, finiteOr,
    if_pos (hf _ (Single.least_mem hf (List.ne_nil_of_mem hfloor))),
    if_pos (hg _ (Single.greatest_mem hg (List.ne_nil_of_mem hceiling)))]
  calc Single.least (heightsOf f c) ≤ (tileSample f c n).height :=
        Single.least_le (fun a ha => Single.isNaN_of_isFinite (hf a ha)) hfloor
    _ ≤ (tileSample g c n).height := hbelow.height hvalid
    _ ≤ Single.greatest (heightsOf g c) :=
        Single.le_greatest (fun a ha => Single.isNaN_of_isFinite (hg a ha)) hceiling

/-! ### Roofs -/

/-- A horizontal plane at a finite height is one. -/
theorem isValid_facingDown {h : Single} (hfinite : h.isFinite = true) :
    (Plane.facingDown h).isValid = true := by
  rw [Plane.isValid, show (Plane.facingDown h).offset = h from rfl,
    show (Plane.facingDown h).normal = .down from rfl, hfinite]
  decide

/-- A slab over a finite height ends at a finite one. -/
theorem isFinite_add_slabThickness {low : Single} (hlow : low.isFinite = true) :
    (low + slabThickness).isFinite = true := by
  -- Nothing finite is above the greatest finite single, and a slab on top is lost in it.
  have hmost : low ≤ ⟨0x7f7fffff⟩ := by
    refine ⟨Single.isNaN_of_isFinite hlow, rfl, ?_⟩
    have hrank := (abs_lt.mp (Single.isFinite_iff_abs_rank_lt.mp hlow)).2
    rw [show Single.rank ⟨0x7f7fffff⟩ = 255 * 2 ^ 23 - 1 from rfl]
    omega
  have hsum := Single.add_le_add hlow rfl (c := slabThickness) rfl rfl hmost (Single.le_refl rfl)
  rw [show (⟨0x7f7fffff⟩ : Single) + slabThickness = ⟨0x7f7fffff⟩ by decide +kernel] at hsum
  exact Single.isFinite_of_le_of_le (Single.le_add_of_zero_le hlow (by decide)) hsum hlow rfl

/-- The roof is as high over the base as the two ends of the level are apart, and infinitely
high if there is none. -/
theorem roofDelta_between (floor ceiling : LayerSide) (low high : Single) :
    (between floor ceiling low high).roofDelta =
      if (between floor ceiling low high).ceiling.isValid then high - low else .infinity := rfl

variable {floor ceiling : LayerSide} {statistics : LayerStatistics}

/-- A level without a ceiling is open to the sky. -/
theorem roofDelta_of_not_isValid (hlow : (lowest floor statistics).isFinite = true)
    (h : (fitted floor ceiling statistics).ceiling.isValid = false) :
    (fitted floor ceiling statistics).roofDelta = .infinity := by
  revert h
  refine fitted_cases _ _ _ (P := fun l => l.ceiling.isValid = false → l.roofDelta = _) ?_ ?_
  · intro h
    rw [show (slab _ _ _).ceiling = .facingDown (lowest floor statistics + slabThickness) from rfl,
      isValid_facingDown (isFinite_add_slabThickness hlow)] at h
    cases h
  · intro h
    exact if_neg (Bool.not_eq_true _ ▸ h)

/-- A level is upright if it is a slab, has no roof, or ends at or above its start. -/
theorem zero_le_roofDelta_iff (hlow : (lowest floor statistics).isFinite = true)
    (hhigh : (highest ceiling statistics).isNaN = false) :
    .zero ≤ (fitted floor ceiling statistics).roofDelta ↔
      isDegenerate (lowest floor statistics) (highest ceiling statistics) = true ∨
        (fitted floor ceiling statistics).ceiling.isValid = false ∨
        lowest floor statistics ≤ highest ceiling statistics := by
  unfold fitted
  dsimp only
  split
  case isTrue hslab => exact iff_of_true (by decide : .zero ≤ slabThickness) (.inl hslab)
  case isFalse hthick =>
    rw [roofDelta_between]
    split
    case isTrue hvalid =>
      rw [Single.zero_le_sub_iff hlow hhigh]
      simp [hthick, hvalid]
    case isFalse hopen =>
      exact iff_of_true (by decide) (.inr (.inl (Bool.not_eq_true _ ▸ hopen)))

end Layer

/-- A roof that is not below the base leaves the top above it. -/
theorem Level.baseHeight_le_topHeight {l : Level} (hbase : l.baseHeight.isFinite = true)
    (hroof : .zero ≤ l.roofDelta) : l.baseHeight ≤ l.topHeight := by
  unfold topHeight
  split
  case isTrue => exact Single.le_add_of_zero_le hbase hroof
  case isFalse => exact Single.le_infinity (Single.isNaN_of_isFinite hbase)

namespace Builder

/-! ### Braced levels -/

/-- The ceilings of a level index that were accepted, before smoothing. -/
def rawCeilings (builder : Builder) (g : Grid) (i : Nat) : HeightField :=
  builder.rawSide g i (2 * i + 1) LayerStatistics.ceiling

/-- The smoothed ceilings of a level are finite in a tile. -/
def FiniteCeilings (builder : Builder) (g : Grid) (c : Cell) (i : Nat) : Prop :=
  ∀ a ∈ Layer.heightsOf (builder.layerField g i).ceiling c, a.isFinite = true

/-- The height at which a level of a tile ends. -/
def endAt (builder : Builder) (g : Grid) (c : Cell) (i : Nat) : Single :=
  let statistics := LayerStatistics.of builder.config.minNormalY (builder.sampledAt g c) i
  Layer.highest (.of (builder.layerField g i).ceiling c g.tileSize statistics.ceiling) statistics

/-- A ray of a tile is accepted as a floor and as a ceiling of a level, and around it the same
rays are. -/
structure Braced (builder : Builder) (g : Grid) (c : Cell) (i n : Nat) : Prop where
  ray_lt : n < raysPerTile
  accepted : ((builder.rawCeilings g i).sample (c.z.toNat * raysPerAxis + n / raysPerAxis)
    (c.x.toNat * raysPerAxis + n % raysPerAxis)).valid = true
  same : ∀ p ∈ HeightField.placesAround (g.height.toNat * raysPerAxis)
      (g.width.toNat * raysPerAxis) (c.z.toNat * raysPerAxis + n / raysPerAxis)
      (c.x.toNat * raysPerAxis + n % raysPerAxis),
    ((builder.rawFloors g i).sample p.1 p.2).valid
      = ((builder.rawCeilings g i).sample p.1 p.2).valid

/-- A braced level does not end below its start. -/
theorem startAt_le_endAt {builder : Builder} {g : Grid} {c : Cell} (hc : g.contains c = true)
    {i n : Nat} (hn : builder.Braced g c i n) (hfloors : builder.FiniteFloors g c i)
    (hceilings : builder.FiniteCeilings g c i) : builder.startAt g c i ≤ builder.endAt g c i := by
  obtain ⟨hx, hz⟩ := Grid.contains_iff.mp hc
  obtain ⟨hrow, hcolumn⟩ := HeightField.rayPlace_lt (c := c) (Nat.mul_le_mul_right raysPerAxis hz)
    (Nat.mul_le_mul_right raysPerAxis hx) hn.ray_lt
  have hvalid : (Layer.tileSample (builder.layerField g i).ceiling c n).valid = true :=
    (HeightField.valid_sample_smoothed (f := builder.rawCeilings g i)
      (LayerField.size_rawSide ..) hrow hcolumn).trans hn.accepted
  refine Layer.lowest_le_highest g.tileSize _ hn.ray_lt ?_ hvalid hfloors hceilings
  refine HeightField.below_smoothed (f := builder.rawFloors g i) (g := builder.rawCeilings g i)
    rfl rfl (LayerField.size_rawSide ..) (LayerField.size_rawSide ..) hrow hcolumn ?_ ?_ ?_
  · -- Around the ray each floor is below a ceiling of the same ray.
    intro p hp
    obtain ⟨hprow, hpcolumn⟩ := HeightField.mem_placesAround hrow hcolumn hp
    exact below_rawSide (Nat.le_succ (2 * i)) hprow.1 hpcolumn.1 (hn.same p hp)
  · intro hvalid
    exact hfloors _ (Layer.mem_heightsOf.mpr ⟨n, hn.ray_lt, hvalid, rfl⟩)
  · intro hvalid
    exact hceilings _ (Layer.mem_heightsOf.mpr ⟨n, hn.ray_lt, hvalid, rfl⟩)

/-- The level at a position of a cell starts at a finite height, is open to the sky if it has no
ceiling, and is upright exactly if it is a slab, is open, or ends at or above its start. -/
theorem roof_levelsAt {builder : Builder} {g : Grid} {c : Cell} {i : Nat} {layer : Layer}
    (h : (builder.levelsAt g c)[i]? = some layer) :
    layer.baseHeight = builder.startAt g c i ∧ layer.baseHeight.isFinite = true ∧
      (layer.ceiling.isValid = false → layer.roofDelta = .infinity) ∧
      (.zero ≤ layer.roofDelta ↔
        Layer.isDegenerate (builder.startAt g c i) (builder.endAt g c i) = true ∨
          layer.ceiling.isValid = false ∨ builder.startAt g c i ≤ builder.endAt g c i) := by
  rw [levelsAt, List.getElem?_map, Option.map_eq_some_iff] at h
  obtain ⟨fitted, hfitted, rfl⟩ := h
  obtain ⟨hfinite, heq⟩ := getElem?_fittedAt hfitted
  have hbase : fitted.baseHeight = builder.startAt g c i := by
    rw [heq]
    exact Layer.baseHeight_fitted ..
  -- Structure leaves the planes and heights of the level as they were fitted.
  change fitted.baseHeight = _ ∧ fitted.baseHeight.isFinite = true ∧
    (fitted.ceiling.isValid = false → fitted.roofDelta = _) ∧
    (_ ≤ fitted.roofDelta ↔ _ ∨ fitted.ceiling.isValid = false ∨ _)
  refine ⟨hbase, hbase ▸ hfinite, ?_, ?_⟩
  · rw [heq]
    exact Layer.roofDelta_of_not_isValid hfinite
  · rw [heq]
    exact Layer.zero_le_roofDelta_iff hfinite (Layer.isNaN_highest ..)

/-! ### Built boards -/

/-- Every level of a built board starts at a finite height, and is open to the sky if it has no
ceiling. It is upright exactly if it is a slab, is open, or ends at or above its start, and so
if one of the rays of its tile braces it. -/
theorem build_spans {builder : Builder} {b : Board} (h : builder.build = .ok b) {k : Nat}
    {l : Level} (hl : b.levels[k]? = some l) :
    ∃ (c : Cell) (i : Nat) (layer : Layer), b.grid.contains c = true ∧
      (builder.levelsAt b.grid c)[i]? = some layer ∧ l = layer.record k ∧
      l.baseHeight = builder.startAt b.grid c i ∧ l.baseHeight.isFinite = true ∧
      (l.ceiling.isValid = false → l.roofDelta = .infinity) ∧
      (.zero ≤ l.roofDelta ↔
        Layer.isDegenerate (builder.startAt b.grid c i) (builder.endAt b.grid c i) = true ∨
          l.ceiling.isValid = false ∨
          builder.startAt b.grid c i ≤ builder.endAt b.grid c i) ∧
      (.zero ≤ l.roofDelta → l.baseHeight ≤ l.topHeight) ∧
      ∀ n, builder.Braced b.grid c i n → builder.FiniteFloors b.grid c i →
        builder.FiniteCeilings b.grid c i → .zero ≤ l.roofDelta := by
  obtain ⟨c, i, layer, hc, hlayer, rfl, -⟩ := exists_layer_of_build h hl
  refine ⟨c, i, layer, hc, hlayer, rfl, ?_⟩
  obtain ⟨hbase, hfinite, hopen, hroof⟩ := roof_levelsAt hlayer
  refine ⟨hbase, hfinite, hopen, hroof, Level.baseHeight_le_topHeight hfinite, ?_⟩
  intro n hn hfloors hceilings
  exact hroof.mpr (.inr (.inr (startAt_le_endAt hc hn hfloors hceilings)))

/-! ### The levels of the shelf -/

/-- A ray that braces a level of the shelf. -/
def shelfBrace (i : Nat) : Nat := if i = 0 then 1 else 0

/-- Every level of the shelf is braced by one of its rays. -/
theorem braced_shelf {i : Nat} (hi : i < 3) :
    shelf.Braced shelfGrid ⟨0, 0⟩ i (shelfBrace i) := by
  have hray : shelfBrace i < raysPerAxis := by unfold shelfBrace; split <;> decide
  have haccepted : ∀ i < 3,
      (shelfSample LayerStatistics.ceiling (2 * i + 1) i (0, shelfBrace i)).valid = true := by
    decide +kernel
  -- The shelf is one tile, so the windows of its braces are small enough to be looked at.
  have hsame : ∀ i < 3, ∀ p ∈ HeightField.placesAround raysPerAxis raysPerAxis 0 (shelfBrace i),
      (shelfSample LayerStatistics.floor (2 * i) i p).valid
        = (shelfSample LayerStatistics.ceiling (2 * i + 1) i p).valid := by
    decide +kernel
  refine ⟨Nat.lt_trans hray (by decide), ?_, fun p hp => ?_⟩
  · rw [Nat.div_eq_of_lt hray, Nat.mod_eq_of_lt hray, UInt32.toNat_zero, Nat.zero_mul,
      Nat.zero_add, Nat.zero_add, ← haccepted i hi, rawCeilings, rawSide,
      ← sample_shelf _ _ hi (Nat.zero_lt_of_lt hray) hray]
  · rw [Nat.div_eq_of_lt hray, Nat.mod_eq_of_lt hray, UInt32.toNat_zero, Nat.zero_mul,
      Nat.zero_add, Nat.zero_add] at hp
    obtain ⟨hrow, hcolumn⟩ := HeightField.mem_placesAround (by decide) hray hp
    rw [rawFloors, rawCeilings, rawSide, sample_shelf _ _ hi hrow.1 hcolumn.1,
      sample_shelf _ _ hi hrow.1 hcolumn.1]
    exact hsame i hi p hp

/-- All ceilings of the shelf are finite. -/
theorem finiteCeilings_shelf {i : Nat} (hi : i < 3) :
    shelf.FiniteCeilings shelfGrid ⟨0, 0⟩ i := by
  rw [FiniteCeilings, Layer.heightsOf, (sides_shelf hi).2]
  revert i
  decide

/-- A ray braces each level of the shelf, so all of them are upright. -/
theorem shelf_spans : ∃ b, shelf.build = .ok b ∧ 0 < b.levels.size ∧
    ∀ (k : Nat) (l : Level), b.levels[k]? = some l →
      .zero ≤ l.roofDelta ∧ l.baseHeight ≤ l.topHeight := by
  obtain ⟨b, tile, hbuild, hgrid, hlevels, htile, hcount⟩ := build_shelf
  obtain ⟨l, hl, -⟩ := start_of_build hbuild hlevels htile (by omega : 0 < tile.count)
  refine ⟨b, hbuild, Nat.zero_lt_of_lt (Array.getElem?_eq_some_iff.mp hl).1, fun k l hl => ?_⟩
  obtain ⟨c, i, layer, hc, hlayer, -, -, -, -, -, htop, hbraced⟩ := build_spans hbuild hl
  rw [hgrid] at hc hlayer hbraced
  have hcell : c = ⟨0, 0⟩ := List.mem_singleton.mp (Grid.mem_cells_iff.mpr hc)
  rw [hcell] at hlayer hbraced
  have hi : i < 3 := by
    have hlength := (List.getElem?_eq_some_iff.mp hlayer).1
    rwa [levelsAt, List.length_map, length_fittedAt_shelf] at hlength
  have hroof : .zero ≤ l.roofDelta :=
    hbraced _ (braced_shelf hi) (finiteFloors_shelf hi) (finiteCeilings_shelf hi)
  exact ⟨hroof, htop hroof⟩

/-! ### A kerb beside a step -/

/-- Two tiles of sixteen units. Three rays of the first tile go through a kerb of the height
one. In the second tile, the boxes next to the kerb start at the height eight and end at nine
and at a hundred. -/
def kerb : Builder where
  config := { BuildConfig.standard with
    tileSize := ⟨0x41800000⟩
    bounds := some ⟨.splat .zero, ⟨⟨0x42000000⟩, ⟨0x41800000⟩, ⟨0x41800000⟩⟩⟩ }
  solids := #[
    plainBox ⟨⟨0x41700000⟩, .zero, .zero⟩ ⟨⟨0x41800000⟩, .one, ⟨0x40400000⟩⟩,
    plainBox ⟨⟨0x41800000⟩, ⟨0x41000000⟩, .one⟩ ⟨⟨0x41880000⟩, ⟨0x41100000⟩, ⟨0x40000000⟩⟩,
    plainBox ⟨⟨0x41880000⟩, ⟨0x41000000⟩, .zero⟩ ⟨⟨0x41900000⟩, ⟨0x42c80000⟩, ⟨0x40000000⟩⟩]

/-- The grid of the kerb. -/
def kerbGrid : Grid := ⟨2, 1, ⟨0x41800000⟩, .splat .zero, .zero, ⟨0x41800000⟩⟩

/-- The boxes near both tiles. -/
def kerbBin (c : Cell) : TileBin := ⟨c, [0, 1, 2], [], []⟩

/-- The fragments of a ray. -/
def kerbStack (c : Cell) (n : Nat) : List Fragment :=
  if c.x = 0 ∧ (n = 15 ∨ n = 31 ∨ n = 47) then [⟨.down, .zero, 0⟩, ⟨.up, .one, 0⟩]
  else if c.x = 1 ∧ n = 16 then [⟨.down, ⟨0x41000000⟩, 1⟩, ⟨.up, ⟨0x41100000⟩, 1⟩]
  else if c.x = 1 ∧ (n = 1 ∨ n = 17) then [⟨.down, ⟨0x41000000⟩, 2⟩, ⟨.up, ⟨0x42c80000⟩, 2⟩]
  else []

/-- The rays of the kerb are of four sorts: three that meet boxes, and all others, which meet
nothing. -/
theorem kerbStack_cases {P : List Fragment → Prop} (hkerb : P (kerbStack ⟨0, 0⟩ 15))
    (hlow : P (kerbStack ⟨1, 0⟩ 16)) (hhigh : P (kerbStack ⟨1, 0⟩ 1)) (hrest : P []) (c : Cell)
    (n : Nat) : P (kerbStack c n) := by
  unfold kerbStack
  split_ifs
  · exact hkerb
  · exact hlow
  · exact hhigh
  · exact hrest

/-- Where the rays of a tile stand in the direction of the columns. Those of the second tile
begin at sixteen and a half. -/
def kerbPosition (c : Cell) (k : Nat) : Single :=
  if c.x = 0 then shelfPosition k else ⟨0x41840000 + 0x80000 * k.toUInt32⟩

/-- Each ray of the kerb meets the fragments of its stack, from the bottom up. -/
theorem castRay_kerb {c : Cell} (hc : c ∈ kerbGrid.cells) {n : Nat} (hn : n < raysPerTile) :
    castRay ((kerbBin c).targets kerb.solids) (kerbGrid.ray c kerb.config.minRayHeight n)
      = kerbStack c n := by
  have hcolumn : ∀ c ∈ kerbGrid.cells, ∀ k < raysPerAxis,
      Grid.tileEdge .zero ⟨0x41800000⟩ c.x + rayOffset k * ⟨0x41800000⟩ = kerbPosition c k := by
    decide +kernel
  have hrow : ∀ c ∈ kerbGrid.cells, ∀ k < raysPerAxis,
      Grid.tileEdge .zero ⟨0x41800000⟩ c.z + rayOffset k * ⟨0x41800000⟩ = shelfPosition k := by
    decide +kernel
  have hray : kerbGrid.ray c kerb.config.minRayHeight n
      = ⟨kerbPosition c (n % raysPerAxis), shelfPosition (n / raysPerAxis),
        kerb.config.minRayHeight⟩ := by
    rw [← hcolumn c hc _ (Nat.mod_lt n (by decide)), ← hrow c hc _ (Nat.div_lt_of_lt_mul hn)]
    rfl
  -- What each ray meets is computed once the positions of the rays are known.
  have hmet : ∀ c ∈ kerbGrid.cells, ∀ n < raysPerTile,
      ((kerbBin c).targets kerb.solids).boxes.flatMap (fun target =>
        boxFragments ⟨kerbPosition c (n % raysPerAxis), shelfPosition (n / raysPerAxis),
          kerb.config.minRayHeight⟩ target.1 target.2) = kerbStack c n := by
    decide +kernel
  have hsorted : (kerbStack c n).Pairwise fun f g => f.precedes g = true :=
    kerbStack_cases (by decide) (by decide) (by decide) List.Pairwise.nil c n
  rw [castRay_boxes rfl, hray, hmet c hc n hn, List.mergeSort_of_pairwise hsorted]

/-- A tile of the kerb after sampling. -/
def kerbTile (c : Cell) : SampledTile := ⟨kerbBin c, SampledTile.raysOf (kerbStack c), 1⟩

/-- Sampling the kerb gives its tiles. -/
theorem sampledAt_kerb {c : Cell} (hc : c ∈ kerbGrid.cells) :
    kerb.sampledAt kerbGrid c = kerbTile c := by
  have hbin : kerb.binAt kerbGrid c = kerbBin c := by
    rcases List.mem_pair.mp hc with rfl | rfl <;> rfl
  have hlayers : SampledTile.layersOf (SampledTile.raysOf (kerbStack c)) = 1 := by
    rw [SampledTile.layersOf, ← Array.foldl_toList]
    rcases List.mem_pair.mp hc with rfl | rfl
    · set_option maxRecDepth 4000 in
      decide
    · set_option maxRecDepth 4000 in
      decide
  have hstack (n : Nat) : (kerbStack c n).all Fragment.isFinite = true ∧
      parityFilter (kerbStack c n) = kerbStack c n :=
    kerbStack_cases (P := fun stack => stack.all Fragment.isFinite = true ∧
      parityFilter stack = stack) (by decide) (by decide) (by decide) ⟨rfl, rfl⟩ c n
  rw [sampledAt, hbin, SampledTile.of_eq_raysOf (fun n hn => castRay_kerb hc hn)
    (fun n _ => (hstack n).1) (fun n _ => (hstack n).2) (by rw [hlayers]; decide), hlayers]
  rfl

/-- What the rays of a tile say of its only level. The ceilings of the second tile are at nine
and twice at a hundred, so that the mean accepts only the hundreds. -/
def kerbStatistics (c : Cell) : LayerStatistics :=
  if c.x = 0 then
    ⟨⟨.zero, .zero, 3, some 0⟩, ⟨.one, .zero, 3, some 0⟩, .zero, .one⟩
  else
    ⟨⟨⟨0x41000000⟩, .zero, 3, some 2⟩, ⟨⟨0x428b5555⟩, ⟨0x422b975c⟩, 3, some 2⟩, ⟨0x41000000⟩,
      ⟨0x42c80000⟩⟩

/-- Each of them has one level to be measured. -/
theorem measuredAt_kerb {c : Cell} (hc : c ∈ kerbGrid.cells) :
    kerb.measuredAt kerbGrid c = ⟨kerbTile c, #[kerbStatistics c]⟩ := by
  have hstatistics : ∀ c ∈ kerbGrid.cells,
      LayerStatistics.of kerb.config.minNormalY (kerbTile c) 0 = kerbStatistics c := by
    decide +kernel
  rw [measuredAt, sampledAt_kerb hc, SampledTile.measured, ← hstatistics c hc]
  refine congrArg (MeasuredTile.mk _) (Array.ext' ?_)
  rw [Array.toList_map, Array.toList_range]
  rfl

/-- The kerb is these two tiles, side by side. -/
theorem measured_kerb : kerb.measured kerbGrid
    = #[⟨kerbTile ⟨0, 0⟩, #[kerbStatistics ⟨0, 0⟩]⟩,
      ⟨kerbTile ⟨1, 0⟩, #[kerbStatistics ⟨1, 0⟩]⟩] := by
  rw [measured, show kerbGrid.cells = [⟨0, 0⟩, ⟨1, 0⟩] from rfl, List.map_cons, List.map_singleton,
    measuredAt_kerb (by decide), measuredAt_kerb (by decide)]

/-- What a ray contributes to one side of the level index. -/
def kerbSample (side : LayerStatistics → SideStatistics) (slot : Nat) (p : Nat × Nat) :
    FieldSample :=
  let c : Cell := ⟨(p.2 / raysPerAxis).toUInt32, 0⟩
  .of kerb.config.minNormalY (side (kerbStatistics c))
    (kerbStack c (p.1 * raysPerAxis + p.2 % raysPerAxis))[slot]?

/-- Before smoothing, the map of the kerb holds what its rays contribute. -/
theorem sample_kerb (side : LayerStatistics → SideStatistics) (slot : Nat) {p : Nat × Nat}
    (hrow : p.1 < raysPerAxis) (hcolumn : p.2 < 2 * raysPerAxis) :
    (LayerField.rawSide kerb.config.minNormalY (kerb.measured kerbGrid) kerbGrid 0 slot
      side).sample p.1 p.2 = kerbSample side slot p := by
  have hcell : p.2 / raysPerAxis < 2 := Nat.div_lt_of_lt_mul hcolumn
  have hn : p.1 * raysPerAxis + p.2 % raysPerAxis < raysPerTile :=
    (HeightField.place_div_mod hrow (Nat.mod_lt p.2 (by decide))).1
  rw [LayerField.sample_rawSide _ _ _ _ _ hrow hcolumn, measured_kerb, LayerField.sampleAt,
    kerbSample, Nat.div_eq_of_lt hrow, Nat.mod_eq_of_lt hrow, Nat.zero_mul, Nat.zero_add]
  generalize p.1 * raysPerAxis + p.2 % raysPerAxis = n at hn
  interval_cases p.2 / raysPerAxis <;> simp [kerbTile, SampledTile.raysOf, hn]

/-- After smoothing, the first tile holds the averages of what the rays around each place
contribute. -/
theorem samplesOf_kerb (side : LayerStatistics → SideStatistics) (slot : Nat) :
    (LayerField.rawSide kerb.config.minNormalY (kerb.measured kerbGrid) kerbGrid 0 slot
      side).smoothed.samplesOf ⟨0, 0⟩
      = (List.range raysPerTile).filterMap fun n =>
        let p := (n / raysPerAxis, n % raysPerAxis)
        if (kerbSample side slot p).valid then
          some (n, { kerbSample side slot p with
            height := HeightField.average
              ((HeightField.placesAround raysPerAxis (2 * raysPerAxis) p.1 p.2).map
                (kerbSample side slot)) })
        else none := by
  rw [HeightField.samplesOf_smoothed (c := ⟨0, 0⟩) (LayerField.size_rawSide ..) (Nat.le_refl _)
    (Nat.mul_le_mul_right raysPerAxis (by decide)) fun p => sample_kerb side slot]
  simp only [UInt32.toNat_zero, Nat.zero_mul, Nat.zero_add]
  rfl

/-- The smoothed floors of the first tile lie above its smoothed ceilings: beside the kerb the
second tile accepts floors, and no ceiling. -/
theorem sides_kerb :
    (kerb.layerField kerbGrid 0).floor.samplesOf ⟨0, 0⟩
        = [(15, ⟨⟨0x40000000⟩, true, some 0⟩), (31, ⟨⟨0x40000000⟩, true, some 0⟩),
          (47, ⟨⟨0x402aaaab⟩, true, some 0⟩)] ∧
      (kerb.layerField kerbGrid 0).ceiling.samplesOf ⟨0, 0⟩
        = [(15, ⟨.one, true, some 0⟩), (31, ⟨.one, true, some 0⟩),
          (47, ⟨.one, true, some 0⟩)] := by
  refine ⟨(samplesOf_kerb LayerStatistics.floor 0).trans ?_,
    (samplesOf_kerb LayerStatistics.ceiling 1).trans ?_⟩
  · decide +kernel
  · decide +kernel

/-- The first tile of the kerb has one level, from two down to one: its roof is below its base.
-/
theorem fittedAt_kerb : ∃ layer, kerb.fittedAt kerbGrid ⟨0, 0⟩ = [layer] ∧
    layer.baseHeight = ⟨0x40000000⟩ ∧ layer.roofDelta = ⟨0xbf800000⟩ := by
  have hfields : (layerFields kerb.config.minNormalY kerbGrid (kerb.measured kerbGrid)).toList
      = [kerb.layerField kerbGrid 0] := by
    have hcount : (kerb.measured kerbGrid).foldl
        (fun most tile => max most tile.sampled.layerCount) 0 = 1 := by
      rw [measured_kerb]
      rfl
    rw [layerFields, hcount, Array.toList_map, Array.toList_range]
    rfl
  obtain ⟨hfloor, hceiling⟩ := sides_kerb
  rw [fittedAt, hfields, measuredAt_kerb (by decide)]
  simp only [List.zip_cons_cons, List.zip_nil_left, Layer.fitAll, List.map_cons, List.map_nil,
    LayerView.of, LayerSide.of, hfloor, hceiling]
  refine ⟨_, rfl, ?_, ?_⟩
  · decide +kernel
  · decide +kernel

/-- The level of the kerb is upside down: its smoothed floors are at the height two and above,
and its smoothed ceilings at one. -/
theorem kerb_level_inverted : ∃ (b : Board) (k : Nat) (l : Level), kerb.build = .ok b ∧
    b.levels[k]? = some l ∧ ¬ .zero ≤ l.roofDelta ∧ l.topHeight < l.baseHeight := by
  have hgrid : kerb.grid = .ok kerbGrid := by decide
  have hlevels : (kerb.layers kerbGrid).flatten.length < UInt32.size :=
    Nat.lt_of_le_of_lt (kerb.length_layers_le kerbGrid) (by decide)
  obtain ⟨b, hbuild, hb, -⟩ := exists_build hgrid hlevels
  obtain ⟨layer, hlayer, hbase, hroof⟩ := fittedAt_kerb
  have hlevel : (kerb.levelsAt b.grid ⟨0, 0⟩)[0]?
      = some (layer.baked kerbGrid (kerb.structures kerbGrid) (kerb.binAt kerbGrid ⟨0, 0⟩)) := by
    rw [hb, levelsAt, hlayer]
    rfl
  obtain ⟨k, hk⟩ := exists_level_of_build hbuild (by rw [hb]; rfl) hlevel
  refine ⟨b, k, _, hbuild, hk, ?_⟩
  -- Structure leaves the heights of the level as they were fitted.
  change ¬ _ ≤ layer.roofDelta ∧
    (if layer.roofDelta.isFinite then layer.baseHeight + layer.roofDelta else .infinity)
      < layer.baseHeight
  rw [hbase, hroof]
  decide

end Builder

end Battlemap
