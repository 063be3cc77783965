import Battlemap.Proofs.Build.WellPacked

/-!
# `Battlemap.Proofs.Build.Carrier`: which solid a level takes its data from

The fragments of a tile at one place of its rays vote for the solids that they are of,
provided that they are near enough to horizontal. `SampledTile.Carries` says that a solid has
the most votes, and the lowest index among those with as many. The statistics of a level
find this solid (`SampledTile.dominant_slot_iff`), and every valid sample of the tile in a
field repeats it. Smoothing changes heights only, so whichever sample is looked at first, a
side of a level has the solid that carries it in the level's own tile
(`Builder.solid_side`), and no other tile has a say.

`Builder.Inherits` says which data this comes to: that of the solid that carries the floor,
or else the ceiling, or else plain data. `Builder.build_inherits` finds it at every level of
every built board.
-/

set_option autoImplicit false

namespace Battlemap

/-! ### The most frequent of some hits -/

/-- A solid is not ahead of another one if it has fewer hits, or as many and no lower a place.
-/
theorem isAheadOf_eq_false_iff {hits : List Nat} {a b : Nat} : isAheadOf hits a b = false ↔
    hits.count a < hits.count b ∨ hits.count a = hits.count b ∧ b ≤ a := by
  rw [isAheadOf, Bool.eq_false_iff, ne_eq, Bool.or_eq_true, Bool.and_eq_true, decide_eq_true_eq,
    decide_eq_true_eq, beq_iff_eq]
  omega

/-- Not being ahead is transitive, so that the best of a list can be found in one pass. -/
theorem isAheadOf_eq_false_trans {hits : List Nat} {a b c : Nat}
    (hab : isAheadOf hits a b = false) (hbc : isAheadOf hits b c = false) :
    isAheadOf hits a c = false := by
  rw [isAheadOf_eq_false_iff] at *
  omega

/-- Of two solids, the one that goes on has neither of them ahead of it. -/
theorem not_isAheadOf_ite (hits : List Nat) (best solid : Nat) :
    let kept := if isAheadOf hits solid best then solid else best
    isAheadOf hits best kept = false ∧ isAheadOf hits solid kept = false := by
  dsimp only
  split
  case isTrue hahead =>
    rw [← Bool.not_eq_false, isAheadOf_eq_false_iff] at hahead
    rw [isAheadOf_eq_false_iff, isAheadOf_eq_false_iff]
    omega
  case isFalse hnot =>
    exact ⟨isAheadOf_eq_false_iff.mpr (.inr ⟨rfl, Nat.le_refl best⟩), Bool.eq_false_iff.mpr hnot⟩

/-- The search ends with a solid that none of those searched is ahead of. -/
theorem foldl_isAheadOf (hits solids : List Nat) (best : Nat) :
    ∃ s, solids.foldl (fun best solid =>
        match best with
        | none => some solid
        | some other => if isAheadOf hits solid other then some solid else best) (some best)
        = some s ∧ s ∈ best :: solids ∧ ∀ t ∈ best :: solids, isAheadOf hits t s = false := by
  induction solids generalizing best with
  | nil =>
    refine ⟨best, rfl, by simp, fun t ht => ?_⟩
    rw [List.mem_singleton.mp ht, isAheadOf_eq_false_iff]
    exact .inr ⟨rfl, Nat.le_refl best⟩
  | cons solid rest ih =>
    rw [List.foldl_cons]
    dsimp only
    rw [← apply_ite some]
    -- Whichever of the two goes on, what is not ahead of it is not ahead of the last one.
    obtain ⟨hbest, hsolid⟩ := not_isAheadOf_ite hits best solid
    have hmem : (if isAheadOf hits solid best then solid else best) = solid ∨
        (if isAheadOf hits solid best then solid else best) = best := ite_eq_or_eq ..
    generalize (if isAheadOf hits solid best then solid else best) = kept at hbest hsolid hmem
    obtain ⟨s, hs, hsmem, hall⟩ := ih kept
    refine ⟨s, hs, ?_, fun t ht => ?_⟩
    · rcases List.mem_cons.mp hsmem with rfl | hrest
      · rcases hmem with rfl | rfl <;> simp
      · simp [hrest]
    · have hkept := hall kept (by simp)
      rcases List.mem_cons.mp ht with rfl | ht
      · exact isAheadOf_eq_false_trans hbest hkept
      · rcases List.mem_cons.mp ht with rfl | ht
        · exact isAheadOf_eq_false_trans hsolid hkept
        · exact hall t (List.mem_cons_of_mem _ ht)

/-- Among some hits there is a most frequent one, and no hit is ahead of it. -/
theorem exists_mostFrequent {hits : List Nat} (h : hits ≠ []) :
    ∃ s, mostFrequent hits = some s ∧ s ∈ hits ∧ ∀ t ∈ hits, isAheadOf hits t s = false := by
  obtain ⟨first, rest, rfl⟩ := List.exists_cons_of_ne_nil h
  obtain ⟨s, hs, hmem, hall⟩ := foldl_isAheadOf (first :: rest)
    (rest.filter fun solid => !(solid == first)).eraseDups first
  have hsolids (t : Nat) :
      t ∈ first :: (rest.filter fun solid => !(solid == first)).eraseDups ↔ t ∈ first :: rest := by
    rw [← List.eraseDups_cons, List.mem_eraseDups]
  rw [hsolids] at hmem
  simp only [hsolids] at hall
  refine ⟨s, ?_, hmem, hall⟩
  rw [mostFrequent, List.eraseDups_cons]
  exact hs

/-- The most frequent hit is there, none is more frequent, and of those as frequent it is the
lowest. -/
theorem mostFrequent_eq_some_iff {hits : List Nat} {s : Nat} :
    mostFrequent hits = some s ↔ s ∈ hits ∧ ∀ t ∈ hits, isAheadOf hits t s = false := by
  by_cases hnil : hits = []
  · simp [hnil, mostFrequent]
  obtain ⟨m, hfound, hmem, hall⟩ := exists_mostFrequent hnil
  rw [hfound, Option.some.injEq]
  constructor
  · rintro rfl
    exact ⟨hmem, hall⟩
  · rintro ⟨hs, hfirst⟩
    have hms := isAheadOf_eq_false_iff.mp (hfirst m hmem)
    have hsm := isAheadOf_eq_false_iff.mp (hall s hs)
    omega

/-- Some solid is the most frequent one unless there are no hits. -/
theorem mostFrequent_eq_none_iff {hits : List Nat} : mostFrequent hits = none ↔ hits = [] := by
  constructor
  · intro hnone
    by_contra hne
    obtain ⟨s, hs, -⟩ := exists_mostFrequent hne
    simp [hnone] at hs
  · rintro rfl
    rfl

/-! ### The votes of a tile -/

namespace SampledTile

variable {t : SampledTile} {minNormalY : Single} {place s : Nat}

/-- The fragments at a place of a tile's rays that are near enough to horizontal and of a
solid. -/
def votes (t : SampledTile) (minNormalY : Single) (place s : Nat) : Nat :=
  (t.slot place).countP fun f => SideStatistics.counts minNormalY f && f.solid == s

/-- A solid has the most votes at a place of a tile's rays, and no solid before it has as
many. -/
structure Carries (t : SampledTile) (minNormalY : Single) (place s : Nat) : Prop where
  voted : 0 < t.votes minNormalY place s
  most : ∀ r, t.votes minNormalY place r ≤ t.votes minNormalY place s
  first : ∀ r < s, t.votes minNormalY place r < t.votes minNormalY place s

/-- At most one solid carries a side of a level, since ties go to the lower place. -/
theorem Carries.unique {r : Nat} (hs : t.Carries minNormalY place s)
    (hr : t.Carries minNormalY place r) : s = r := by
  have hrs := mt (hs.first r) (Nat.not_lt.mpr (hr.most s))
  have hsr := mt (hr.first s) (Nat.not_lt.mpr (hs.most r))
  omega

/-- The solids of the fragments that count. -/
def hits (t : SampledTile) (minNormalY : Single) (place : Nat) : List Nat :=
  ((t.slot place).filter (SideStatistics.counts minNormalY)).map Fragment.solid

/-- A solid is listed among the hits as often as it has votes. -/
theorem count_hits (t : SampledTile) (minNormalY : Single) (place s : Nat) :
    (t.hits minNormalY place).count s = t.votes minNormalY place s := by
  rw [hits, List.count, List.countP_map, List.countP_filter, votes]
  exact List.countP_congr fun f _ => by simp [and_comm]

/-- The solid that the statistics of a side name is the most frequent one among its hits. -/
theorem dominant_slot (t : SampledTile) (minNormalY : Single) (place : Nat) :
    (SideStatistics.of minNormalY (t.slot place)).dominant
      = mostFrequent (t.hits minNormalY place) := by
  unfold SideStatistics.of
  dsimp only
  split
  case isTrue hempty =>
    rw [hits, List.isEmpty_iff.mp hempty]
    rfl
  case isFalse => rfl

/-- The statistics of a level name the solid with the most votes. -/
theorem dominant_slot_iff :
    (SideStatistics.of minNormalY (t.slot place)).dominant = some s
      ↔ t.Carries minNormalY place s := by
  rw [dominant_slot, mostFrequent_eq_some_iff]
  simp only [isAheadOf_eq_false_iff, count_hits, ← List.count_pos_iff]
  constructor
  · rintro ⟨hsome, hahead⟩
    -- A solid without votes is ahead of none.
    have hnot (r : Nat) : t.votes minNormalY place r < t.votes minNormalY place s ∨
        t.votes minNormalY place r = t.votes minNormalY place s ∧ s ≤ r := by
      rcases Nat.eq_zero_or_pos (t.votes minNormalY place r) with hzero | hpos
      · exact .inl (hzero ▸ hsome)
      · exact hahead r hpos
    refine ⟨hsome, fun r => ?_, fun r hr => ?_⟩
    · exact (hnot r).elim Nat.le_of_lt fun h => h.1.le
    · exact (hnot r).resolve_right fun h => Nat.not_lt.mpr h.2 hr
  · intro h
    refine ⟨h.voted, fun r _ => ?_⟩
    have hmost := h.most r
    have hfirst := h.first r
    omega

/-- They name none if there is no vote. -/
theorem dominant_slot_eq_none_iff :
    (SideStatistics.of minNormalY (t.slot place)).dominant = none
      ↔ ∀ r, t.votes minNormalY place r = 0 := by
  rw [dominant_slot, mostFrequent_eq_none_iff, List.eq_nil_iff_forall_not_mem]
  simp only [← count_hits, List.count_eq_zero]

end SampledTile

/-! ### Fragments come from solids -/

/-- The fragments of a box name the box. -/
theorem solid_of_mem_boxFragments {ray : VerticalRay} {index : Nat} {bounds : Box} {f : Fragment}
    (h : f ∈ boxFragments ray index bounds) : f.solid = index := by
  unfold boxFragments at h
  split at h
  · cases h
  · split at h
    · rcases List.mem_pair.mp h with rfl | rfl <;> rfl
    · cases h

/-- A box that a ray is tested against is one of the solids. -/
theorem TileBin.lt_size_of_mem_boxes {bin : TileBin} {solids : Array Solid} {index : Nat}
    {bounds : Box} (h : (index, bounds) ∈ (bin.targets solids).boxes) : index < solids.size := by
  obtain ⟨i, -, hi⟩ := List.mem_filterMap.mp h
  obtain ⟨solid, hsolid, heq⟩ := Option.map_eq_some_iff.mp hi
  cases heq
  exact (Array.getElem?_eq_some_iff.mp hsolid).1

/-- A polygon that a ray is tested against belongs to one of the solids. -/
theorem TileBin.lt_size_of_mem_polygons {bin : TileBin} {solids : Array Solid} {index : Nat}
    {polygon : Polygon} (h : (index, polygon) ∈ (bin.targets solids).polygons) :
    index < solids.size := by
  obtain ⟨⟨i, places⟩, -, hi⟩ := List.mem_flatMap.mp h
  dsimp only at hi
  split at hi
  case h_2 => cases hi
  case h_1 mesh hmesh =>
    obtain ⟨place, -, hplace⟩ := List.mem_filterMap.mp hi
    obtain ⟨_, -, heq⟩ := Option.map_eq_some_iff.mp hplace
    cases heq
    obtain ⟨solid, hsolid, -⟩ := Option.bind_eq_some_iff.mp hmesh
    exact (Array.getElem?_eq_some_iff.mp hsolid).1

/-- A ray meets solids of the build only. -/
theorem solid_lt_of_mem_castRay {bin : TileBin} {solids : Array Solid} {ray : VerticalRay}
    {f : Fragment} (h : f ∈ castRay (bin.targets solids) ray) : f.solid < solids.size := by
  rw [castRay, List.mem_mergeSort, List.mem_append, List.mem_flatMap, List.mem_filterMap] at h
  rcases h with ⟨⟨index, bounds⟩, hbox, hf⟩ | ⟨⟨index, polygon⟩, hpolygon, hf⟩
  · rw [solid_of_mem_boxFragments hf]
    exact TileBin.lt_size_of_mem_boxes hbox
  · obtain ⟨height, -, rfl⟩ := Option.map_eq_some_iff.mp hf
    exact TileBin.lt_size_of_mem_polygons hpolygon

/-- The fragments that a tile keeps are of solids of the build. -/
theorem SampledTile.solid_lt_of_mem_slot {solids : Array Solid} {g : Grid} {start : Single}
    {bin : TileBin} {place : Nat} {f : Fragment}
    (h : f ∈ (SampledTile.of solids g start bin).slot place) : f.solid < solids.size := by
  obtain ⟨ray, hray, hf⟩ := List.mem_filterMap.mp h
  obtain ⟨n, -, rfl⟩ := exists_cast_of_mem_rays (Array.mem_toList_iff.mp hray)
  have hkept := List.mem_of_getElem? ((List.getElem?_toArray ..).symm.trans hf)
  exact solid_lt_of_mem_castRay ((Fragment.alternating_sublist false _).subset hkept)

/-! ### The solid of a side -/

/-- What every entry of a list agrees on is what the first of them says. -/
theorem findSome?_or_eq {α β : Type} {f : α → Option β} {l : List α} {d : Option β}
    (h : ∀ a ∈ l, f a = d) : (l.findSome? f).or d = d := by
  cases hfound : l.findSome? f with
  | none => rfl
  | some b =>
    obtain ⟨a, ha, hb⟩ := List.exists_of_findSome?_eq_some hfound
    rw [← h a ha, hb]
    rfl

namespace Builder

variable {builder : Builder} {g : Grid} {c : Cell}

/-- The measured tile under a ray of a cell is that of the cell. -/
theorem measured_at_ray (hc : g.contains c = true) {n : Nat} (hn : n < raysPerTile) :
    (builder.measured g)[(c.z.toNat * raysPerAxis + n / raysPerAxis) / raysPerAxis
        * g.width.toNat + (c.x.toNat * raysPerAxis + n % raysPerAxis) / raysPerAxis]?
      = some (builder.measuredAt g c) := by
  obtain ⟨⟨hrow, -⟩, hcolumn, -⟩ := HeightField.ray_div_mod hn c.z.toNat c.x.toNat
  rw [hrow, hcolumn, measured, List.getElem?_toArray, List.getElem?_map]
  exact congrArg _ (Grid.getElem?_cells hc)

/-- Whatever sample of the tile comes first, a side of a level has the solid that the
statistics of the level in this tile name. -/
theorem solid_side (hc : g.contains c = true) (i slot : Nat)
    (side : LayerStatistics → SideStatistics) :
    let statistics := side (.of builder.config.minNormalY (builder.sampledAt g c) i)
    (LayerSide.of (LayerField.rawSide builder.config.minNormalY (builder.measured g) g i slot
      side).smoothed c g.tileSize statistics).solid = statistics.dominant := by
  obtain ⟨hx, hz⟩ := Grid.contains_iff.mp hc
  refine findSome?_or_eq fun ⟨n, sample⟩ hmem => ?_
  obtain ⟨hn, hvalid, rfl⟩ := Layer.mem_samplesOf.mp hmem
  obtain ⟨hrow, hcolumn⟩ := HeightField.rayPlace_lt (c := c)
    (Nat.mul_le_mul_right raysPerAxis hz) (Nat.mul_le_mul_right raysPerAxis hx) hn
  have hsize := LayerField.size_rawSide builder.config.minNormalY (builder.measured g) g i slot side
  rw [Layer.tileSample, HeightField.valid_sample_smoothed hsize hrow hcolumn,
    LayerField.sample_rawSide _ _ _ _ _ hrow hcolumn] at hvalid
  dsimp only
  rw [Layer.tileSample, HeightField.solid_sample_smoothed hsize hrow hcolumn,
    LayerField.sample_rawSide _ _ _ _ _ hrow hcolumn]
  -- The sample comes from a ray of the tile itself, and names what its statistics name.
  obtain ⟨tile, statistics, _, f, htile, hstatistics, -, -, hsample⟩ :=
    LayerField.exists_of_valid hvalid
  cases (measured_at_ray hc hn).symm.trans htile
  cases eq_of_getElem?_map_range ((Array.getElem?_toList ..).trans hstatistics)
  rw [hsample]

/-- The sides of a fitted level have the solids that the statistics of its own tile name. -/
theorem solids_of_fittedAt (hc : g.contains c = true) {i : Nat} {layer : Layer}
    (h : (builder.fittedAt g c)[i]? = some layer) :
    layer.floorSolid = (SideStatistics.of builder.config.minNormalY
        ((builder.sampledAt g c).slot (2 * i))).dominant ∧
      layer.ceilingSolid = (SideStatistics.of builder.config.minNormalY
        ((builder.sampledAt g c).slot (2 * i + 1))).dominant := by
  have hfloor := builder.solid_side hc i (2 * i) LayerStatistics.floor
  have hceiling := builder.solid_side hc i (2 * i + 1) LayerStatistics.ceiling
  obtain ⟨-, rfl⟩ := getElem?_fittedAt h
  rw [Layer.floorSolid_fitted, Layer.ceilingSolid_fitted]
  exact ⟨hfloor, hceiling⟩

end Builder

/-! ### Inherited data -/

/-- The bits of a header that its level does not set itself. -/
def inheritedFlags : UInt32 :=
  ~~~(destroyedFlag ||| roofValidFlag ||| destructibleFlag ||| structuralFlag)

/-- The data keeps what is not up to the level: who it belongs to, the other flags, and
the payload, cut or filled with zeros to a size. -/
structure LevelData.Keeps (d given : LevelData) (size : Nat) : Prop where
  instanceId : d.header.instanceId = given.header.instanceId
  nameHash : d.header.nameHash = given.header.nameHash
  layerBit : d.header.layerBit = given.header.layerBit
  flags : d.header.flags &&& inheritedFlags = given.header.flags &&& inheritedFlags
  payload : d.payload
    = given.payload.take size ++ List.replicate (size - given.payload.length) 0

/-- Completing a header keeps what is not up to the level. -/
theorem Layer.keeps_levelData {layer : Layer} {solids : Array Solid} {size : Nat}
    {given : LevelData} (h : layer.inherited solids size = given.resized size) (position : Nat) :
    (layer.levelData solids size position).Keeps given size := by
  refine ⟨?_, ?_, ?_, ?_, ?_⟩
  all_goals dsimp only [levelData]; rw [h]
  · rfl
  · rfl
  · rfl
  · -- None of the four flags of a level is among the bits that are kept.
    rw [Layer.header, LevelHeader.flags_setFlag_and _ (by decide)]
    dsimp only
    rw [LevelHeader.flags_setFlag_and _ (by decide), LevelHeader.flags_setFlag_and _ (by decide),
      LevelHeader.flags_setFlag_and _ (by decide)]
    rfl
  · rfl

namespace Builder

/-- The data that a level of a sampled tile inherits: that of the solid that carries its
floor, if any does, or else its ceiling, or else plain data. -/
inductive Inherits (builder : Builder) (t : SampledTile) (l : Nat) : LevelData → Prop
  | floor {s : Nat} {solid : Solid} (hs : t.Carries builder.config.minNormalY (2 * l) s)
      (hsolid : builder.solids[s]? = some solid) : Inherits builder t l solid.data
  | ceiling (hfloor : ∀ r, t.votes builder.config.minNormalY (2 * l) r = 0) {s : Nat}
      {solid : Solid} (hs : t.Carries builder.config.minNormalY (2 * l + 1) s)
      (hsolid : builder.solids[s]? = some solid) : Inherits builder t l solid.data
  | plain (hfloor : ∀ r, t.votes builder.config.minNormalY (2 * l) r = 0)
      (hceiling : ∀ r, t.votes builder.config.minNormalY (2 * l + 1) r = 0) :
      Inherits builder t l ⟨.plain, []⟩

/-- A level inherits from one solid only. -/
theorem Inherits.unique {builder : Builder} {t : SampledTile} {l : Nat} {d e : LevelData}
    (hd : builder.Inherits t l d) (he : builder.Inherits t l e) : d = e := by
  -- A solid that carries a side has a vote there, so the cases exclude each other.
  have hnone {place s : Nat} (hs : t.Carries builder.config.minNormalY place s)
      (hzero : ∀ r, t.votes builder.config.minNormalY place r = 0) : False :=
    Nat.lt_irrefl 0 (hzero s ▸ hs.voted)
  cases hd with
  | floor hs hsolid =>
    cases he with
    | floor hr hother =>
      cases hs.unique hr
      cases hsolid.symm.trans hother
      rfl
    | ceiling hfloor => exact (hnone hs hfloor).elim
    | plain hfloor => exact (hnone hs hfloor).elim
  | ceiling hfloor hs hsolid =>
    cases he with
    | floor hr => exact (hnone hr hfloor).elim
    | ceiling _ hr hother =>
      cases hs.unique hr
      cases hsolid.symm.trans hother
      rfl
    | plain _ hceiling => exact (hnone hs hceiling).elim
  | plain hfloor hceiling =>
    cases he with
    | floor hr => exact (hnone hr hfloor).elim
    | ceiling _ hr => exact (hnone hr hceiling).elim
    | plain => rfl

variable {builder : Builder} {g : Grid} {c : Cell}

/-- A solid with votes is one of the build. -/
theorem exists_solid {place s : Nat}
    (h : (builder.sampledAt g c).Carries builder.config.minNormalY place s) :
    ∃ solid, builder.solids[s]? = some solid := by
  obtain ⟨f, hf, hvote⟩ := List.countP_pos_iff.mp h.voted
  rw [Bool.and_eq_true, beq_iff_eq] at hvote
  have hlt : s < builder.solids.size := hvote.2 ▸ SampledTile.solid_lt_of_mem_slot hf
  exact ⟨_, Array.getElem?_eq_getElem hlt⟩

/-- Each level of a tile inherits some data, from what its own tile was sampled for. -/
theorem exists_inherits (hc : g.contains c = true) {i : Nat} {layer : Layer}
    (h : (builder.levelsAt g c)[i]? = some layer) (size : Nat) :
    ∃ given, builder.Inherits (builder.sampledAt g c) i given ∧
      layer.inherited builder.solids size = given.resized size := by
  rw [levelsAt, List.getElem?_map, Option.map_eq_some_iff] at h
  obtain ⟨fitted, hfitted, rfl⟩ := h
  obtain ⟨hfloor, hceiling⟩ := solids_of_fittedAt hc hfitted
  -- Structure leaves the solids of both sides as they are.
  rw [Layer.inherited, Layer.baked]
  dsimp only
  cases hf : fitted.floorSolid with
  | some s =>
    have hs := SampledTile.dominant_slot_iff.mp (hfloor.symm.trans hf)
    obtain ⟨solid, hsolid⟩ := exists_solid hs
    exact ⟨_, .floor hs hsolid, by rw [Option.some_or, Option.bind_some, hsolid]⟩
  | none =>
    have hnone := SampledTile.dominant_slot_eq_none_iff.mp (hfloor.symm.trans hf)
    rw [Option.none_or]
    cases hr : fitted.ceilingSolid with
    | some s =>
      have hs := SampledTile.dominant_slot_iff.mp (hceiling.symm.trans hr)
      obtain ⟨solid, hsolid⟩ := exists_solid hs
      exact ⟨_, .ceiling hnone hs hsolid, by rw [Option.bind_some, hsolid]⟩
    | none =>
      exact ⟨_, .plain hnone (SampledTile.dominant_slot_eq_none_iff.mp (hceiling.symm.trans hr)),
        rfl⟩

/-- On a built board each level of each tile has the data that it inherits from what its own
tile was sampled for. The levels of a tile are packed behind those of all tiles before it,
which is where the run of the tile and the data index of the level lead as long as all levels
can be addressed in 32 bits. -/
theorem build_inherits {b : Board} (h : builder.build = .ok b) {tile : Tile}
    (htile : b.tile? c = some tile) {l : Nat} (hl : l < tile.count) :
    let place := ((b.tiles.toList.take (b.grid.tileIndex c)).map Tile.count).sum + l
    ∃ given level data, builder.Inherits (builder.sampledAt b.grid c) l given ∧
      b.levels[place]? = some level ∧ b.data[place]? = some data ∧
      data.Keeps given b.payloadSize.toNat ∧
      (b.levels.size ≤ UInt32.size → tile.first + l = place ∧ level.dataIndex.toNat = place) := by
  obtain ⟨g, -, -, rfl⟩ := build_eq_ok_iff.mp h
  have hpacked := Packing.holds_ofTiles builder.solids builder.config.payloadSize.toNat
    (builder.layers g)
  generalize Packing.ofTiles builder.solids builder.config.payloadSize.toNat (builder.layers g)
    = p at hpacked h htile
  rw [Board.tile?_eq_some_iff] at htile
  obtain ⟨hc, htile⟩ := htile
  have hlayers := builder.getElem?_layers hc
  cases (hpacked.tile hlayers).symm.trans htile
  have hlt : l < (builder.levelsAt g c).length := by
    refine Nat.lt_of_lt_of_le hl ?_
    rw [Tile.count, UInt32.toNat_ofNat']
    exact Nat.mod_le _ _
  have hlayer := List.getElem?_eq_getElem hlt
  obtain ⟨hlevel, hdata⟩ := hpacked.level hlayers hlayer
  obtain ⟨given, hgiven, hinherited⟩ :=
    exists_inherits hc hlayer builder.config.payloadSize.toNat
  -- A tile has few enough levels to count them, however many there are in all.
  have hfew : ∀ layers ∈ builder.layers g, layers.length < UInt32.size :=
    fun layers hmem => Nat.lt_of_le_of_lt (length_le_of_mem_layers hmem) (by decide)
  dsimp only
  rw [← hpacked.levelsBefore_eq hfew]
  refine ⟨given, _, _, hgiven, hlevel, hdata, Layer.keeps_levelData hinherited l, fun hsize => ?_⟩
  have hplace : Packing.levelsBefore (builder.layers g) (g.tileIndex c) + l < UInt32.size :=
    Nat.lt_of_lt_of_le (Array.getElem?_eq_some_iff.mp hlevel).1 hsize
  have hfirst := UInt32.toNat_ofNat_of_lt' (Nat.lt_of_le_of_lt (Nat.le_add_right _ l) hplace)
  exact ⟨congrArg (· + l) hfirst, UInt32.toNat_ofNat_of_lt' hplace⟩

/-! ### The shelf with labels -/

/-- The data by which a solid of the shelf can be told from the others. It has a flag that
levels keep and one that they do not. -/
def label (i : Nat) : LevelData where
  header := { LevelHeader.plain with
    flags := 16 ||| destroyedFlag
    instanceId := 100 + i.toUInt32
    nameHash := 200 + i.toUInt32
    layerBit := i.toUInt8 }
  payload := [i.toUInt8 + 1]

/-- The shelf, with a label on every solid. -/
def labelledShelf : Builder where
  config := { shelf.config with payloadSize := 2 }
  solids := (shelf.solids.toList.zipIdx.map fun (solid, i) =>
    { solid with data := label i }).toArray

/-- Labels do not matter to the rays. -/
theorem sampledAt_labelledShelf : labelledShelf.sampledAt shelfGrid ⟨0, 0⟩ = shelfTile := by
  have hbin : labelledShelf.binAt shelfGrid ⟨0, 0⟩ = shelf.binAt shelfGrid ⟨0, 0⟩ := rfl
  have htargets : (shelf.binAt shelfGrid ⟨0, 0⟩).targets labelledShelf.solids
      = (shelf.binAt shelfGrid ⟨0, 0⟩).targets shelf.solids := rfl
  rw [← sampledAt_shelf, sampledAt, sampledAt, hbin, SampledTile.of, SampledTile.of,
    SampledTile.castAll, SampledTile.castAll, htargets]
  rfl

/-- Labels on the boxes of a shelf do not change how its tile is fitted. -/
theorem fittedAt_labelledShelf :
    labelledShelf.fittedAt shelfGrid ⟨0, 0⟩ = shelf.fittedAt shelfGrid ⟨0, 0⟩ := by
  have hmeasured : labelledShelf.measuredAt shelfGrid ⟨0, 0⟩
      = shelf.measuredAt shelfGrid ⟨0, 0⟩ := by
    rw [measuredAt, measuredAt, sampledAt_labelledShelf, sampledAt_shelf]
    rfl
  have hall : labelledShelf.measured shelfGrid = shelf.measured shelfGrid := by
    rw [measured, measured, show shelfGrid.cells = [⟨0, 0⟩] from rfl, List.map_singleton,
      List.map_singleton, hmeasured]
  rw [fittedAt, fittedAt, hmeasured, hall]
  rfl

/-- The shelf outvotes the lowest box of the stack, two rays to one, though its rays come
later. So it gives the lowest level its data. -/
theorem labelledShelf_inherits : ∃ b tile data, labelledShelf.build = .ok b ∧
    b.tile? ⟨0, 0⟩ = some tile ∧ 0 < tile.count ∧ b.data[0]? = some data ∧
    data.Keeps (label 0) 2 := by
  have hgrid : labelledShelf.grid = .ok shelfGrid := by decide
  have hlevels : (labelledShelf.layers shelfGrid).flatten.length < UInt32.size :=
    Nat.lt_of_le_of_lt (labelledShelf.length_layers_le shelfGrid) (by decide)
  obtain ⟨b, hbuild, hb, -⟩ := exists_build hgrid hlevels
  obtain ⟨tile, htile, hcount⟩ := tile_of_build hbuild (c := ⟨0, 0⟩) (by rw [hb]; rfl)
  rw [hb, fittedAt_labelledShelf, length_fittedAt_shelf] at hcount
  have hl : 0 < tile.count := by omega
  obtain ⟨given, level, data, hgiven, -, hdata, hkeeps, -⟩ := build_inherits hbuild htile hl
  obtain ⟨g, -, -, rfl⟩ := build_eq_ok_iff.mp hbuild
  cases hb
  -- Only one solid can have the most votes, so it is enough to know one that has.
  have hcarries : (labelledShelf.sampledAt shelfGrid ⟨0, 0⟩).Carries
      labelledShelf.config.minNormalY (2 * 0) 0 := by
    rw [sampledAt_labelledShelf, ← SampledTile.dominant_slot_iff]
    decide +kernel
  cases hgiven.unique (.floor hcarries rfl)
  exact ⟨_, tile, data, hbuild, htile, hl, hdata, hkeeps⟩

end Builder

end Battlemap
