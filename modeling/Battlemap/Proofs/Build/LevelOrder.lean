import Battlemap.Proofs.Build.Alternation
import Battlemap.Proofs.Build.Fitting
import Battlemap.Proofs.Build.Smoothing

/-!
# `Battlemap.Proofs.Build.LevelOrder`: when the levels of a tile ascend

Along a ray the floors ascend (`Proofs.Build.RayOrder`). The start of a level
is gathered from many rays, though, and each level discards the rays that lie
too far from its own mean. So two levels of a tile can start from different
rays, and then the upper one can start lower: `Builder.shelf_levels_descend`.

Where two levels accept the floors of the same rays the order survives. Their
smoothed floors are ordered ray by ray (`Proofs.Build.Smoothing`), and so are
the lowest points of these (`Layer.lowest_le_lowest`).
`Builder.build_levels_ascend` says this of built boards.
-/

set_option autoImplicit false

namespace Battlemap

namespace Layer

/-! ### Lowest points -/

/-- The valid heights of a tile's own rays. -/
def heightsOf (f : HeightField) (c : Cell) : List Single :=
  (f.samplesOf c).map fun (_, sample) => sample.height

/-- A level starts at the least of the smoothed heights of its floor, or at the least height
that was sampled if none of them is a number. -/
theorem lowest_eq (f : HeightField) (c : Cell) (tileSize : Single) (statistics : LayerStatistics) :
    lowest (.of f c tileSize statistics.floor) statistics
      = finiteOr (Single.least (heightsOf f c)) statistics.floorMin := by
  rw [lowest, LayerSide.of, LayerSide.ofSamples, Single.least, heightsOf]
  dsimp only
  rw [List.foldl_map, List.foldl_map]
  rfl

/-- The sample of a tile's ray. -/
def tileSample (f : HeightField) (c : Cell) (n : Nat) : FieldSample :=
  f.sample (c.z.toNat * raysPerAxis + n / raysPerAxis) (c.x.toNat * raysPerAxis + n % raysPerAxis)

/-- The samples of a tile are those of its rays that are valid. -/
theorem mem_samplesOf {f : HeightField} {c : Cell} {n : Nat} {sample : FieldSample} :
    (n, sample) ∈ f.samplesOf c ↔
      n < raysPerTile ∧ (tileSample f c n).valid = true ∧ tileSample f c n = sample := by
  simp only [HeightField.samplesOf, List.mem_filterMap, List.mem_range]
  constructor
  · rintro ⟨m, hm, hsome⟩
    rw [Option.ite_none_right_eq_some] at hsome
    obtain ⟨hvalid, heq⟩ := hsome
    cases heq
    exact ⟨hm, hvalid, rfl⟩
  · rintro ⟨hn, hvalid, rfl⟩
    exact ⟨n, hn, if_pos hvalid⟩

/-- The heights of a tile are those of its valid samples. -/
theorem mem_heightsOf {f : HeightField} {c : Cell} {a : Single} :
    a ∈ heightsOf f c ↔ ∃ n < raysPerTile, (tileSample f c n).valid = true ∧
      (tileSample f c n).height = a := by
  simp only [heightsOf, List.mem_map, Prod.exists, mem_samplesOf]
  constructor
  · rintro ⟨n, _, ⟨hn, hvalid, rfl⟩, ha⟩
    exact ⟨n, hn, hvalid, ha⟩
  · rintro ⟨n, hn, hvalid, ha⟩
    exact ⟨n, _, ⟨hn, hvalid, rfl⟩, ha⟩

/-- If the floors of two levels are ordered ray by ray, and those of the tile,
then so are the starts of the levels. -/
theorem lowest_le_lowest {f g : HeightField} {c : Cell} (tileSize : Single)
    {s t : LayerStatistics} (h : ∀ n < raysPerTile, (tileSample f c n).Below (tileSample g c n))
    (hf : ∀ a ∈ heightsOf f c, a.isFinite = true) (hg : ∀ a ∈ heightsOf g c, a.isFinite = true)
    (hmin : s.floorMin ≤ t.floorMin) :
    lowest (.of f c tileSize s.floor) s ≤ lowest (.of g c tileSize t.floor) t := by
  have hbelow : ∀ b ∈ heightsOf g c, ∃ a ∈ heightsOf f c, a ≤ b := by
    intro b hb
    obtain ⟨n, hn, hvalid, rfl⟩ := mem_heightsOf.mp hb
    exact ⟨_, mem_heightsOf.mpr ⟨n, hn, (h n hn).valid.trans hvalid, rfl⟩, (h n hn).height hvalid⟩
  have hempty : heightsOf g c = [] → heightsOf f c = [] := by
    intro hnil
    refine List.eq_nil_iff_forall_not_mem.mpr fun a ha => ?_
    obtain ⟨n, hn, hvalid, rfl⟩ := mem_heightsOf.mp ha
    exact List.eq_nil_iff_forall_not_mem.mp hnil _
      (mem_heightsOf.mpr ⟨n, hn, (h n hn).valid.symm.trans hvalid, rfl⟩)
  rw [lowest_eq, lowest_eq]
  -- Without an accepted floor both levels start at the lowest floors of the tile.
  by_cases hnil : heightsOf g c = []
  · rw [hnil, hempty hnil]
    exact hmin
  · have hfnil : heightsOf f c ≠ [] := by
      obtain ⟨b, hb⟩ := List.exists_mem_of_ne_nil _ hnil
      obtain ⟨a, ha, -⟩ := hbelow b hb
      exact List.ne_nil_of_mem ha
    rw [finiteOr, finiteOr, if_pos (hf _ (Single.least_mem hf hfnil)),
      if_pos (hg _ (Single.least_mem hg hnil))]
    exact Single.least_le_least (fun a ha => Single.isNaN_of_isFinite (hf a ha))
      (fun b hb => Single.isNaN_of_isFinite (hg b hb)) hbelow

end Layer

namespace Builder

/-! ### Built boards -/

/-- The floors of a level index that were accepted, before smoothing. -/
def rawFloors (builder : Builder) (g : Grid) (i : Nat) : HeightField :=
  LayerField.rawSide builder.config.minNormalY (builder.measured g) g i (2 * i)
    LayerStatistics.floor

/-- Two level indices accept the floors of the same rays, in a tile and one step
around it. -/
def SameFloors (builder : Builder) (g : Grid) (c : Cell) (i j : Nat) : Prop :=
  ∀ row < g.height.toNat * raysPerAxis, ∀ column < g.width.toNat * raysPerAxis,
    c.z.toNat * raysPerAxis ≤ row + 1 → row ≤ (c.z.toNat + 1) * raysPerAxis →
    c.x.toNat * raysPerAxis ≤ column + 1 → column ≤ (c.x.toNat + 1) * raysPerAxis →
    ((builder.rawFloors g i).sample row column).valid
      = ((builder.rawFloors g j).sample row column).valid

/-- The smoothed floors of a level are finite in a tile. -/
def FiniteFloors (builder : Builder) (g : Grid) (c : Cell) (i : Nat) : Prop :=
  ∀ a ∈ Layer.heightsOf (builder.layerField g i).floor c, a.isFinite = true

/-- The rays of a sampled tile of a build ascend. -/
theorem ordered_sampledAt (builder : Builder) (g : Grid) (c : Cell) :
    (builder.sampledAt g c).Ordered :=
  SampledTile.ordered_of _ _ _ _

/-- So do those of a tile that has been measured. -/
theorem ordered_measured {builder : Builder} {g : Grid} {k : Nat} {tile : MeasuredTile}
    (h : (builder.measured g)[k]? = some tile) : tile.sampled.Ordered := by
  rw [measured, List.getElem?_toArray, List.getElem?_map, Option.map_eq_some_iff] at h
  obtain ⟨c, -, rfl⟩ := h
  exact ordered_sampledAt builder g c

/-- The heights of one side of a level index that were accepted, before smoothing. The rays
have them in a slot. -/
def rawSide (builder : Builder) (g : Grid) (i slot : Nat)
    (side : LayerStatistics → SideStatistics) : HeightField :=
  LayerField.rawSide builder.config.minNormalY (builder.measured g) g i slot side

/-- At a place where two sides of levels agree on whether there is a height, the one in the
lower slot is not above the other. -/
theorem below_rawSide {builder : Builder} {g : Grid} {i j slot slot' : Nat}
    {side side' : LayerStatistics → SideStatistics} (hslots : slot ≤ slot') {row column : Nat}
    (hrow : row < g.height.toNat * raysPerAxis) (hcolumn : column < g.width.toNat * raysPerAxis)
    (hsame : ((builder.rawSide g i slot side).sample row column).valid
      = ((builder.rawSide g j slot' side').sample row column).valid) :
    ((builder.rawSide g i slot side).sample row column).Below
      ((builder.rawSide g j slot' side').sample row column) := by
  refine ⟨hsame, fun hvalid => ?_⟩
  rw [hvalid] at hsame
  unfold rawSide at hsame hvalid ⊢
  rw [LayerField.sample_rawSide _ _ _ _ _ hrow hcolumn] at hsame hvalid ⊢
  rw [LayerField.sample_rawSide _ _ _ _ _ hrow hcolumn]
  -- Both heights come from one ray, and its fragments ascend.
  obtain ⟨tile, _, ray, f, htile, -, hray, hf, hsample⟩ := LayerField.exists_of_valid hsame
  obtain ⟨tile', _, ray', f', htile', -, hray', hf', hsample'⟩ :=
    LayerField.exists_of_valid hvalid
  cases htile.symm.trans htile'
  cases hray.symm.trans hray'
  have hascends := ordered_measured htile ray (Array.mem_of_getElem? hray)
  obtain ⟨low, hlow, hle⟩ := hascends.exists_below hslots hf'
  cases hf.symm.trans hlow
  rw [hsample, hsample']
  exact hle

/-- Two levels of a tile that accept the floors of the same rays start in
ascending order. -/
theorem startAt_le_startAt {builder : Builder} {g : Grid} {c : Cell} (hc : g.contains c = true)
    {i j : Nat} (hij : i ≤ j) (hsame : builder.SameFloors g c i j)
    (hi : builder.FiniteFloors g c i) (hj : builder.FiniteFloors g c j) :
    builder.startAt g c i ≤ builder.startAt g c j := by
  obtain ⟨hx, hz⟩ := Grid.contains_iff.mp hc
  have hfloorMin := (builder.ordered_sampledAt g c).floorMin_le_floorMin
    builder.config.minNormalY hij
  refine Layer.lowest_le_lowest g.tileSize (fun n hn => ?_) hi hj hfloorMin
  obtain ⟨hrow, hcolumn⟩ := HeightField.rayPlace_lt (c := c) (Nat.mul_le_mul_right raysPerAxis hz)
    (Nat.mul_le_mul_right raysPerAxis hx) hn
  refine HeightField.below_smoothed (f := builder.rawFloors g i) (g := builder.rawFloors g j)
    rfl rfl (LayerField.size_rawSide ..) (LayerField.size_rawSide ..) hrow hcolumn ?_ ?_ ?_
  · -- The window leaves the tile by one step at most.
    intro p hp
    obtain ⟨hprow, hpcolumn⟩ := HeightField.mem_placesAround hrow hcolumn hp
    refine below_rawSide (Nat.mul_le_mul_left 2 hij) hprow.1 hpcolumn.1
      (hsame _ hprow.1 _ hpcolumn.1 ?_ ?_ ?_ ?_)
    · exact Nat.le_trans (Nat.le_add_right _ _) hprow.2.1
    · have hray : n / raysPerAxis < raysPerAxis := Nat.div_lt_of_lt_mul hn
      rw [Nat.add_one_mul]
      omega
    · exact Nat.le_trans (Nat.le_add_right _ _) hpcolumn.2.1
    · have hray : n % raysPerAxis < raysPerAxis := Nat.mod_lt n (by decide)
      rw [Nat.add_one_mul]
      omega
  · intro hvalid
    exact hi _ (Layer.mem_heightsOf.mpr ⟨n, hn, hvalid, rfl⟩)
  · intro hvalid
    exact hj _ (Layer.mem_heightsOf.mpr ⟨n, hn, hvalid, rfl⟩)

/-- On a built board, two levels of a tile that accept the floors of the same
rays stand in ascending order. -/
theorem build_levels_ascend {builder : Builder} {b : Board} (h : builder.build = .ok b)
    (hlevels : b.levels.size ≤ UInt32.size) {c : Cell} {tile : Tile} (htile : b.tile? c = some tile)
    {i j : Nat} (hij : i ≤ j) (hj : j < tile.count) (hsame : builder.SameFloors b.grid c i j)
    (hlow : builder.FiniteFloors b.grid c i) (hhigh : builder.FiniteFloors b.grid c j) :
    ∃ l m, b.levels[tile.first + i]? = some l ∧ b.levels[tile.first + j]? = some m ∧
      l.baseHeight ≤ m.baseHeight := by
  obtain ⟨l, hl, hlstart⟩ := start_of_build h hlevels htile (Nat.lt_of_le_of_lt hij hj)
  obtain ⟨m, hm, hmstart⟩ := start_of_build h hlevels htile hj
  refine ⟨l, m, hl, hm, ?_⟩
  rw [hlstart, hmstart]
  exact startAt_le_startAt (Board.contains_of_tile? htile) hij hsame hlow hhigh

/-! ### A shelf over a stack -/

/-- A box without gameplay data. -/
def plainBox (low high : Vec3) : Solid := ⟨none, ⟨low, high⟩, ⟨.plain, []⟩⟩

/-- One tile of sixteen units. Its first ray goes through three boxes, which
start at the heights zero, five and eight; the two rays next to it go through a
shelf at the height ten, and the others through nothing. -/
def shelf : Builder where
  config := { BuildConfig.standard with
    tileSize := ⟨0x41800000⟩
    bounds := some ⟨.splat .zero, .splat ⟨0x41800000⟩⟩ }
  solids := #[
    plainBox ⟨.one, ⟨0x41200000⟩, .zero⟩ ⟨⟨0x40400000⟩, ⟨0x41300000⟩, .one⟩,
    plainBox ⟨.zero, .zero, .zero⟩ ⟨.one, .one, .one⟩,
    plainBox ⟨.zero, ⟨0x40a00000⟩, .zero⟩ ⟨.one, ⟨0x40c00000⟩, .one⟩,
    plainBox ⟨.zero, ⟨0x41000000⟩, .zero⟩ ⟨.one, ⟨0x41100000⟩, .one⟩]

/-- The grid of the shelf. -/
def shelfGrid : Grid := ⟨1, 1, ⟨0x41800000⟩, .splat .zero, .zero, ⟨0x41800000⟩⟩

/-- The boxes near the only tile. -/
def shelfBin : TileBin := ⟨⟨0, 0⟩, [0, 1, 2, 3], [], []⟩

/-- Where the rays stand along an axis, from one half to fifteen and a half. -/
def shelfPosition (k : Nat) : Single :=
  ⟨#[0x3f000000, 0x3fc00000, 0x40200000, 0x40600000, 0x40900000, 0x40b00000, 0x40d00000,
    0x40f00000, 0x41080000, 0x41180000, 0x41280000, 0x41380000, 0x41480000, 0x41580000,
    0x41680000, 0x41780000].getD k 0⟩

/-- The fragments of a ray. -/
def shelfStack (n : Nat) : List Fragment :=
  if n = 0 then
    [⟨.down, .zero, 1⟩, ⟨.up, .one, 1⟩, ⟨.down, ⟨0x40a00000⟩, 2⟩, ⟨.up, ⟨0x40c00000⟩, 2⟩,
      ⟨.down, ⟨0x41000000⟩, 3⟩, ⟨.up, ⟨0x41100000⟩, 3⟩]
  else if n = 1 ∨ n = 2 then [⟨.down, ⟨0x41200000⟩, 0⟩, ⟨.up, ⟨0x41300000⟩, 0⟩]
  else []

/-- The rays of the shelf are of three sorts: the first one, the second one, and all others,
which meet nothing. -/
theorem shelfStack_cases {P : List Fragment → Prop} (hfirst : P (shelfStack 0))
    (hnext : P (shelfStack 1)) (hrest : P []) (n : Nat) : P (shelfStack n) := by
  by_cases hzero : n = 0
  · rwa [hzero]
  · by_cases hshelf : n = 1 ∨ n = 2
    · rwa [shelfStack, if_neg hzero, if_pos hshelf]
    · rwa [shelfStack, if_neg hzero, if_neg hshelf]

/-- Each ray of the shelf meets the fragments of its stack, from the bottom up. -/
theorem castRay_shelf {n : Nat} (hn : n < raysPerTile) :
    castRay (shelfBin.targets shelf.solids)
      (shelfGrid.ray ⟨0, 0⟩ shelf.config.minRayHeight n) = shelfStack n := by
  have hposition : ∀ k < raysPerAxis,
      Grid.tileEdge .zero ⟨0x41800000⟩ 0 + rayOffset k * ⟨0x41800000⟩ = shelfPosition k := by
    decide +kernel
  have hray : shelfGrid.ray ⟨0, 0⟩ shelf.config.minRayHeight n
      = ⟨shelfPosition (n % raysPerAxis), shelfPosition (n / raysPerAxis),
        shelf.config.minRayHeight⟩ := by
    rw [← hposition _ (Nat.mod_lt n (by decide)), ← hposition _ (Nat.div_lt_of_lt_mul hn)]
    rfl
  have hmet : ∀ n < raysPerTile, (shelfBin.targets shelf.solids).boxes.flatMap
      (fun target => boxFragments ⟨shelfPosition (n % raysPerAxis),
        shelfPosition (n / raysPerAxis), shelf.config.minRayHeight⟩ target.1 target.2)
        = shelfStack n := by
    decide +kernel
  -- The boxes are registered in an order in which no ray needs sorting.
  have hsorted : (shelfStack n).Pairwise fun f g => f.precedes g = true :=
    shelfStack_cases (by decide) (by decide) List.Pairwise.nil n
  rw [castRay_boxes rfl, hray, hmet n hn, List.mergeSort_of_pairwise hsorted]

/-- The tile of the shelf after sampling. -/
def shelfTile : SampledTile :=
  ⟨shelfBin, ((List.range raysPerTile).map fun n => (shelfStack n).toArray).toArray, 3⟩

/-- Sampling the shelf gives its tile. -/
theorem sampledAt_shelf : shelf.sampledAt shelfGrid ⟨0, 0⟩ = shelfTile := by
  have hbin : shelf.binAt shelfGrid ⟨0, 0⟩ = shelfBin := rfl
  have hlayers : SampledTile.layersOf (SampledTile.raysOf shelfStack) = 3 := by
    rw [SampledTile.layersOf, ← Array.foldl_toList]
    set_option maxRecDepth 4000 in
    decide
  have hstack (n : Nat) : (shelfStack n).all Fragment.isFinite = true ∧
      parityFilter (shelfStack n) = shelfStack n :=
    shelfStack_cases (P := fun stack => stack.all Fragment.isFinite = true ∧
      parityFilter stack = stack) (by decide) (by decide) ⟨rfl, rfl⟩ n
  -- Three levels are no more than a tile may have.
  rw [sampledAt, hbin, SampledTile.of_eq_raysOf (fun n hn => castRay_shelf hn)
    (fun n _ => (hstack n).1) (fun n _ => (hstack n).2) (by rw [hlayers]; decide), hlayers]
  rfl

/-- The shelf is that one tile, measured for its three levels. -/
theorem measured_shelf : shelf.measured shelfGrid
    = #[⟨shelfTile,
      (Array.range 3).map (LayerStatistics.of shelf.config.minNormalY shelfTile)⟩] := by
  rw [measured, show shelfGrid.cells = [⟨0, 0⟩] from rfl, List.map_singleton, measuredAt,
    sampledAt_shelf]
  rfl

/-- What a ray contributes to one side of a level. -/
def shelfSample (side : LayerStatistics → SideStatistics) (slot i : Nat) (p : Nat × Nat) :
    FieldSample :=
  .of shelf.config.minNormalY (side (.of shelf.config.minNormalY shelfTile i))
    (shelfStack (p.1 * raysPerAxis + p.2))[slot]?

/-- Before smoothing, the map of the shelf holds what its rays contribute. -/
theorem sample_shelf (side : LayerStatistics → SideStatistics) (slot : Nat) {i : Nat} (hi : i < 3)
    {p : Nat × Nat} (hrow : p.1 < raysPerAxis) (hcolumn : p.2 < raysPerAxis) :
    (LayerField.rawSide shelf.config.minNormalY (shelf.measured shelfGrid) shelfGrid i slot
      side).sample p.1 p.2 = shelfSample side slot i p := by
  have hn : p.1 * raysPerAxis + p.2 < raysPerTile := (HeightField.place_div_mod hrow hcolumn).1
  rw [LayerField.sample_rawSide _ _ _ _ _ hrow hcolumn, measured_shelf, LayerField.sampleAt,
    shelfSample, Nat.div_eq_of_lt hrow, Nat.div_eq_of_lt hcolumn,
    Nat.mod_eq_of_lt hrow, Nat.mod_eq_of_lt hcolumn]
  simp [shelfTile, hn, hi]

/-- After smoothing, it holds the averages of what the rays around each place contribute. -/
theorem samplesOf_shelf (side : LayerStatistics → SideStatistics) (slot : Nat) {i : Nat}
    (hi : i < 3) :
    (LayerField.rawSide shelf.config.minNormalY (shelf.measured shelfGrid) shelfGrid i slot
      side).smoothed.samplesOf ⟨0, 0⟩
      = (List.range raysPerTile).filterMap fun n =>
        let p := (n / raysPerAxis, n % raysPerAxis)
        if (shelfSample side slot i p).valid then
          some (n, { shelfSample side slot i p with
            height := HeightField.average
              ((HeightField.placesAround raysPerAxis raysPerAxis p.1 p.2).map
                (shelfSample side slot i)) })
        else none := by
  rw [HeightField.samplesOf_smoothed (c := ⟨0, 0⟩) (LayerField.size_rawSide ..) (Nat.le_refl _)
    (Nat.le_refl _) fun p => sample_shelf side slot hi]
  simp only [UInt32.toNat_zero, Nat.zero_mul, Nat.zero_add]
  rfl

/-- The smoothed floors of the levels of the tile. -/
def shelfFloors (i : Nat) : List (Nat × FieldSample) :=
  match i with
  | 0 => [(1, ⟨⟨0x41200000⟩, true, some 0⟩), (2, ⟨⟨0x41200000⟩, true, some 0⟩)]
  | 1 => [(0, ⟨⟨0x40a00000⟩, true, some 2⟩)]
  | _ => [(0, ⟨⟨0x41000000⟩, true, some 3⟩)]

/-- The smoothed ceilings of the levels of the tile. -/
def shelfCeilings (i : Nat) : List (Nat × FieldSample) :=
  match i with
  | 0 => [(1, ⟨⟨0x41300000⟩, true, some 0⟩), (2, ⟨⟨0x41300000⟩, true, some 0⟩)]
  | 1 => [(0, ⟨⟨0x40c00000⟩, true, some 2⟩)]
  | _ => [(0, ⟨⟨0x41100000⟩, true, some 3⟩)]

/-- These come to the smoothed floors and ceilings of the shelf. -/
theorem sides_shelf {i : Nat} (hi : i < 3) :
    (shelf.layerField shelfGrid i).floor.samplesOf ⟨0, 0⟩ = shelfFloors i ∧
      (shelf.layerField shelfGrid i).ceiling.samplesOf ⟨0, 0⟩ = shelfCeilings i := by
  have hfloors := samplesOf_shelf LayerStatistics.floor (2 * i) hi
  have hceilings := samplesOf_shelf LayerStatistics.ceiling (2 * i + 1) hi
  refine ⟨hfloors.trans ?_, hceilings.trans ?_⟩
  · clear hfloors hceilings
    revert i
    decide +kernel
  · clear hfloors hceilings
    revert i
    decide +kernel

/-- The first level of the shelf starts at ten and the second one at five, which is lower. -/
theorem startAt_shelf : shelf.startAt shelfGrid ⟨0, 0⟩ 0 = ⟨0x41200000⟩ ∧
    shelf.startAt shelfGrid ⟨0, 0⟩ 1 = ⟨0x40a00000⟩ := by
  rw [startAt, startAt, LayerSide.of, LayerSide.of, (sides_shelf (by decide)).1,
    (sides_shelf (by decide)).1]
  decide

/-- The tile of the shelf has three levels. -/
theorem length_fittedAt_shelf : (shelf.fittedAt shelfGrid ⟨0, 0⟩).length = 3 := by
  have hfields : (layerFields shelf.config.minNormalY shelfGrid (shelf.measured shelfGrid)).toList
      = [shelf.layerField shelfGrid 0, shelf.layerField shelfGrid 1,
        shelf.layerField shelfGrid 2] := by
    have hcount : (shelf.measured shelfGrid).foldl
        (fun most tile => max most tile.sampled.layerCount) 0 = 3 := by
      rw [measured_shelf]
      rfl
    rw [layerFields, hcount, Array.toList_map, Array.toList_range]
    rfl
  have hstatistics : (shelf.measuredAt shelfGrid ⟨0, 0⟩).layers.toList
      = [.of shelf.config.minNormalY shelfTile 0, .of shelf.config.minNormalY shelfTile 1,
        .of shelf.config.minNormalY shelfTile 2] := by
    rw [measuredAt, sampledAt_shelf, SampledTile.measured, Array.toList_map, Array.toList_range]
    rfl
  obtain ⟨hfloor, hceiling⟩ := sides_shelf (by decide : 0 < 3)
  obtain ⟨hfloor', hceiling'⟩ := sides_shelf (by decide : 1 < 3)
  obtain ⟨hfloor'', hceiling''⟩ := sides_shelf (by decide : 2 < 3)
  rw [fittedAt, hfields, hstatistics]
  simp only [List.zip_cons_cons, List.zip_nil_left, Layer.fitAll, List.map_cons, List.map_nil,
    LayerView.of, LayerSide.of, hfloor, hceiling, hfloor', hceiling', hfloor'', hceiling'']
  -- No level is a slab, so none ends the list.
  decide

/-- The shelf can be built, and its map has these levels. -/
theorem build_shelf : ∃ b tile, shelf.build = .ok b ∧ b.grid = shelfGrid ∧
    b.levels.size ≤ UInt32.size ∧ b.tile? ⟨0, 0⟩ = some tile ∧ tile.count = 3 := by
  -- The levels of the only tile are all levels.
  have hsize : (shelf.layers shelfGrid).flatten.length = 3 := by
    rw [layers_eq, show shelfGrid.cells = [⟨0, 0⟩] from rfl]
    simp [levelsAt, length_fittedAt_shelf]
  have hgrid : shelf.grid = .ok shelfGrid := by decide
  obtain ⟨b, hbuild, hb, hlevels⟩ := exists_build hgrid (by rw [hsize]; decide)
  obtain ⟨tile, htile, hcount⟩ := tile_of_build hbuild (c := ⟨0, 0⟩) (by rw [hb]; rfl)
  rw [hb, length_fittedAt_shelf] at hcount
  exact ⟨b, tile, hbuild, hb, by rw [hlevels, hsize]; decide, htile, hcount⟩

/-- The lowest two levels of the shelf are in descending order: the lowest level
discards the one ray that the levels above it start from. -/
theorem shelf_levels_descend : ∃ b tile l m, shelf.build = .ok b ∧ b.tile? ⟨0, 0⟩ = some tile ∧
    1 < tile.count ∧ b.levels[tile.first]? = some l ∧ b.levels[tile.first + 1]? = some m ∧
    ¬ l.baseHeight ≤ m.baseHeight := by
  obtain ⟨b, tile, hbuild, hgrid, hlevels, htile, hcount⟩ := build_shelf
  obtain ⟨l, hl, hlstart⟩ := start_of_build hbuild hlevels htile (by omega : 0 < tile.count)
  obtain ⟨m, hm, hmstart⟩ := start_of_build hbuild hlevels htile (by omega : 1 < tile.count)
  refine ⟨b, tile, l, m, hbuild, htile, by omega, hl, hm, ?_⟩
  rw [hlstart, hmstart, hgrid, startAt_shelf.1, startAt_shelf.2]
  decide

/-- The raw floors of the shelf are valid exactly where the smoothed ones are. -/
theorem valid_shelf {i row column : Nat} (hi : i < 3) (hrow : row < raysPerAxis)
    (hcolumn : column < raysPerAxis) :
    ((shelf.rawFloors shelfGrid i).sample row column).valid = true ↔
      row * raysPerAxis + column ∈ (shelfFloors i).map Prod.fst := by
  obtain ⟨hn, hdiv, hmod⟩ := HeightField.place_div_mod hrow hcolumn
  have hsample : Layer.tileSample (shelf.layerField shelfGrid i).floor ⟨0, 0⟩
      (row * raysPerAxis + column) = (shelf.rawFloors shelfGrid i).smoothed.sample row column := by
    rw [Layer.tileSample, hdiv, hmod, UInt32.toNat_zero, Nat.zero_mul, Nat.zero_add, Nat.zero_add]
    rfl
  have hvalid : (Layer.tileSample (shelf.layerField shelfGrid i).floor ⟨0, 0⟩
      (row * raysPerAxis + column)).valid
        = ((shelf.rawFloors shelfGrid i).sample row column).valid := by
    rw [hsample]
    exact HeightField.valid_sample_smoothed (LayerField.size_rawSide ..) hrow hcolumn
  rw [← hvalid, ← (sides_shelf hi).1]
  simp [Layer.mem_samplesOf, hn, raysPerTile]

/-- The second and the third level of the shelf have floors at the same rays. -/
theorem sameFloors_shelf : shelf.SameFloors shelfGrid ⟨0, 0⟩ 1 2 := by
  intro row hrow column hcolumn _ _ _ _
  rw [Bool.eq_iff_iff, valid_shelf (by decide) hrow hcolumn, valid_shelf (by decide) hrow hcolumn]
  rfl

/-- All floors of the shelf are finite. -/
theorem finiteFloors_shelf {i : Nat} (hi : i < 3) : shelf.FiniteFloors shelfGrid ⟨0, 0⟩ i := by
  rw [FiniteFloors, Layer.heightsOf, (sides_shelf hi).1]
  revert i
  decide

/-- The levels above the lowest one start from the same ray, and ascend. -/
theorem shelf_levels_ascend : ∃ b tile l m, shelf.build = .ok b ∧
    b.levels.size ≤ UInt32.size ∧ b.tile? ⟨0, 0⟩ = some tile ∧ 2 < tile.count ∧
    shelf.SameFloors b.grid ⟨0, 0⟩ 1 2 ∧ shelf.FiniteFloors b.grid ⟨0, 0⟩ 1 ∧
    shelf.FiniteFloors b.grid ⟨0, 0⟩ 2 ∧ b.levels[tile.first + 1]? = some l ∧
    b.levels[tile.first + 2]? = some m ∧ l.baseHeight ≤ m.baseHeight := by
  obtain ⟨b, tile, hbuild, hgrid, hlevels, htile, hcount⟩ := build_shelf
  have hsame : shelf.SameFloors b.grid ⟨0, 0⟩ 1 2 := hgrid ▸ sameFloors_shelf
  have hlow : shelf.FiniteFloors b.grid ⟨0, 0⟩ 1 := hgrid ▸ finiteFloors_shelf (by decide)
  have hhigh : shelf.FiniteFloors b.grid ⟨0, 0⟩ 2 := hgrid ▸ finiteFloors_shelf (by decide)
  obtain ⟨l, m, hl, hm, hle⟩ := build_levels_ascend hbuild hlevels htile (by decide : 1 ≤ 2)
    (by omega) hsame hlow hhigh
  exact ⟨b, tile, l, m, hbuild, hlevels, htile, by omega, hsame, hlow, hhigh, hl, hm, hle⟩

end Builder

end Battlemap
