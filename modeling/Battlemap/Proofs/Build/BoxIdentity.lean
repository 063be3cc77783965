import Battlemap.Proofs.Build.Alternation
import Battlemap.Proofs.Build.Carrier
import Battlemap.Proofs.Build.Inclination
import Battlemap.Proofs.Build.Refit

/-!
# `Battlemap.Proofs.Build.BoxIdentity`: levels of boxes and the boxes they are of

In a scene of boxes a ray only meets faces that are horizontal, so all of them are equally near
to horizontal, and either all of them count or none does (`counts_of_mem_slot`). If they count,
then each level has the data of one of the boxes: there is a ray that reaches the level, and
what this ray meets at the floor of the level is a face that counts. Which inclinations this is
so for is worked out in `Battlemap.Proofs.Build.Inclination`.
-/

set_option autoImplicit false

namespace Battlemap

/-- All solids of the builder are boxes. -/
def Builder.HasOnlyBoxes (builder : Builder) : Prop := ∀ solid ∈ builder.solids, solid.mesh = none

/-! ### What rays meet -/

/-- Where all solids are boxes, a bin holds no polygons. -/
theorem TileBin.polygons_targets {solids : Array Solid} (h : ∀ solid ∈ solids, solid.mesh = none)
    (bin : TileBin) : (bin.targets solids).polygons = [] := by
  refine List.flatMap_eq_nil_iff.mpr fun ⟨index, places⟩ _ => ?_
  have hnone : solids[index]?.bind Solid.mesh = none := by
    cases hsolid : solids[index]? with
    | none => rfl
    | some solid => exact h solid (Array.mem_of_getElem? hsolid)
  dsimp only
  rw [hnone]

/-- The faces of a box that a ray meets are horizontal. -/
theorem abs_normal_of_mem_boxFragments {ray : VerticalRay} {index : Nat} {bounds : Box}
    {f : Fragment} (h : f ∈ boxFragments ray index bounds) : f.normal.y.abs = .one := by
  have hfaces : Vec3.down.y.abs = .one ∧ Vec3.up.y.abs = .one := by decide
  unfold boxFragments at h
  split at h
  · cases h
  · split at h
    · rcases List.mem_pair.mp h with rfl | rfl
      · exact hfaces.1
      · exact hfaces.2
    · cases h

namespace SampledTile

variable {solids : Array Solid} {g : Grid} {start : Single} {bin : TileBin}

/-- All faces of boxes count if the limit is below one, and otherwise none does. -/
theorem counts_of_mem_slot (h : ∀ solid ∈ solids, solid.mesh = none) (minNormalY : Single)
    {place : Nat} {f : Fragment} (hf : f ∈ (SampledTile.of solids g start bin).slot place) :
    SideStatistics.counts minNormalY f = decide (minNormalY < .one) := by
  obtain ⟨ray, hray, hf⟩ := List.mem_filterMap.mp hf
  obtain ⟨n, -, rfl⟩ := exists_cast_of_mem_rays (Array.mem_toList_iff.mp hray)
  have hkept := List.mem_of_getElem? ((List.getElem?_toArray ..).symm.trans hf)
  have hmet := (Fragment.alternating_sublist false _).subset hkept
  rw [castRay_boxes (TileBin.polygons_targets h bin), List.mem_mergeSort, List.mem_flatMap] at hmet
  obtain ⟨target, -, hface⟩ := hmet
  rw [SideStatistics.counts, abs_normal_of_mem_boxFragments hface]

/-- Some ray reaches the floor of each level that a tile is sampled for. -/
theorem exists_mem_slot {l : Nat} (hl : l < (SampledTile.of solids g start bin).layerCount) :
    ∃ f, f ∈ (SampledTile.of solids g start bin).slot (2 * l) := by
  have hleast := isLeast_layerCount solids g start bin
  -- Fewer levels than there are do not cover every ray.
  obtain ⟨ray, hray, hsize⟩ : ∃ ray ∈ (SampledTile.of solids g start bin).rays,
      2 * l < ray.size := by
    by_contra hnone
    have hcovers : ∀ ray ∈ (SampledTile.of solids g start bin).rays, ray.size ≤ 2 * l :=
      fun ray hray => Nat.not_lt.mp fun hsize => hnone ⟨ray, hray, hsize⟩
    exact absurd (hleast.2 hcovers) (Nat.not_le.mpr hl)
  exact ⟨ray[2 * l], List.mem_filterMap.mpr
    ⟨ray, Array.mem_toList_iff.mpr hray, Array.getElem?_eq_getElem hsize⟩⟩

/-- With a limit that is not below one nothing gets a vote: the sides of a box that face up or
down have a vertical part of exactly one. -/
theorem votes_eq_zero (h : ∀ solid ∈ solids, solid.mesh = none) {minNormalY : Single}
    (hlimit : ¬ minNormalY < .one) (place s : Nat) :
    (SampledTile.of solids g start bin).votes minNormalY place s = 0 := by
  refine List.countP_eq_zero.mpr fun f hf => ?_
  rw [counts_of_mem_slot h minNormalY hf, decide_eq_false hlimit]
  simp

/-- Below that, the floor of every level of a tile has a vote, since its fragment is the flat
side of a box. -/
theorem exists_votes (h : ∀ solid ∈ solids, solid.mesh = none) {minNormalY : Single}
    (hlimit : minNormalY < .one) {l : Nat}
    (hl : l < (SampledTile.of solids g start bin).layerCount) :
    ∃ s, (SampledTile.of solids g start bin).votes minNormalY (2 * l) s ≠ 0 := by
  obtain ⟨f, hf⟩ := exists_mem_slot hl
  refine ⟨f.solid, fun hzero => ?_⟩
  have hvote := List.countP_eq_zero.mp hzero f hf
  rw [counts_of_mem_slot h minNormalY hf, decide_eq_true hlimit] at hvote
  simp at hvote

end SampledTile

namespace Builder

variable {builder : Builder} {g : Grid} {c : Cell}

/-- What a level of boxes inherits. -/
theorem Inherits.of_boxes (h : builder.HasOnlyBoxes) {l : Nat} {given : LevelData}
    (hl : l < (builder.levelsAt g c).length)
    (hgiven : builder.Inherits (builder.sampledAt g c) l given) :
    (builder.config.minNormalY < .one → ∃ solid ∈ builder.solids, given = solid.data) ∧
      (¬ builder.config.minNormalY < .one → given = ⟨.plain, []⟩) := by
  have hcount : l < (builder.sampledAt g c).layerCount := by
    rw [levelsAt, List.length_map] at hl
    exact Nat.lt_of_lt_of_le hl (builder.length_fittedAt_le_layerCount g c)
  cases hgiven with
  | floor hs hsolid =>
    refine ⟨fun _ => ⟨_, Array.mem_of_getElem? hsolid, rfl⟩, fun hlimit => ?_⟩
    exact absurd (SampledTile.votes_eq_zero h hlimit _ _) (Nat.ne_of_gt hs.voted)
  | ceiling hfloor hs hsolid =>
    refine ⟨fun _ => ⟨_, Array.mem_of_getElem? hsolid, rfl⟩, fun hlimit => ?_⟩
    exact absurd (SampledTile.votes_eq_zero h hlimit _ _) (Nat.ne_of_gt hs.voted)
  | plain hfloor hceiling =>
    refine ⟨fun hlimit => ?_, fun _ => rfl⟩
    obtain ⟨s, hs⟩ := SampledTile.exists_votes h hlimit hcount
    exact absurd (hfloor s) hs

/-- The data of each level of a board of boxes is that of a box, or plain for all of them. -/
theorem keeps_of_boxes (hboxes : builder.HasOnlyBoxes) {b : Board}
    (hbuild : builder.build = .ok b) {k : Nat} {level : Level}
    (hlevel : b.levels[k]? = some level) :
    ∃ data, b.data[k]? = some data ∧
      (b.levels.size ≤ UInt32.size → level.dataIndex.toNat = k) ∧
      (builder.config.minNormalY < .one →
        ∃ solid ∈ builder.solids, data.Keeps solid.data b.payloadSize.toNat) ∧
      (¬ builder.config.minNormalY < .one → data.Keeps ⟨.plain, []⟩ b.payloadSize.toNat) := by
  obtain ⟨c, i, layer, hc, hlayer, rfl, hdata⟩ := exists_layer_of_build hbuild hlevel
  obtain ⟨given, hgiven, hinherited⟩ := exists_inherits hc hlayer b.payloadSize.toNat
  have hkeeps := Layer.keeps_levelData hinherited i
  obtain ⟨hbox, hplain⟩ := hgiven.of_boxes hboxes (List.getElem?_eq_some_iff.mp hlayer).1
  refine ⟨_, hdata, fun hsize => ?_, fun hlimit => ?_, fun hlimit => ?_⟩
  · exact UInt32.toNat_ofNat_of_lt'
      (Nat.lt_of_lt_of_le (Array.getElem?_eq_some_iff.mp hlevel).1 hsize)
  · obtain ⟨solid, hsolid, rfl⟩ := hbox hlimit
    exact ⟨solid, hsolid, hkeeps⟩
  · exact hplain hlimit ▸ hkeeps

end Builder

/-! ### Tiles with levels -/

/-- A tile whose lowest view has a finite floor has a level. -/
theorem Layer.exists_stack {views : List LayerView} {view : LayerView}
    (hview : views[0]? = some view) (h : (lowest view.floor view.statistics).isFinite = true) :
    ∃ layer, (stack views)[0]? = some layer := by
  cases views with
  | nil => cases hview
  | cons first rest =>
    cases hview
    rw [stack, h, Bool.not_true, if_neg Bool.false_ne_true]
    split
    · exact ⟨_, rfl⟩
    · exact ⟨_, rfl⟩

/-- A level has a start if its lowest floor is finite, whether or not a floor counts. -/
theorem Layer.isFinite_lowest (floor : LayerSide) {statistics : LayerStatistics}
    (h : statistics.floorMin.isFinite = true) : (lowest floor statistics).isFinite = true := by
  rw [lowest, finiteOr]
  split
  case isTrue hfinite => exact hfinite
  case isFalse => exact h

namespace SampledTile

variable {solids : Array Solid} {g : Grid} {start : Single} {bin : TileBin}

/-- The least floor of a level that some ray has is finite. -/
theorem isFinite_floorMin (minNormalY : Single) {l : Nat}
    (hl : l < (SampledTile.of solids g start bin).layerCount) :
    (LayerStatistics.of minNormalY (SampledTile.of solids g start bin) l).floorMin.isFinite
      = true := by
  obtain ⟨f, hf⟩ := exists_mem_slot hl
  have hfinite : ∀ a ∈ ((SampledTile.of solids g start bin).slot (2 * l)).map Fragment.height,
      a.isFinite = true := by
    intro a ha
    obtain ⟨f, hf, rfl⟩ := List.mem_map.mp ha
    exact (ordered_of solids g start bin).isFinite_of_mem_slot hf
  rw [floorMin_eq_least]
  exact hfinite _ (Single.least_mem hfinite (List.ne_nil_of_mem (List.mem_map_of_mem hf)))

end SampledTile

namespace Builder

variable {builder : Builder} {g : Grid} {c : Cell}

/-- The levels of a tile are the stack of its views on them. -/
theorem fittedAt_eq_stack (hc : g.contains c = true) : builder.fittedAt g c
    = Layer.stack ((builder.sampledAt g c).views builder.config.minNormalY g
      (builder.measured g)) := by
  have hcell : (builder.sampledAt g c).bin.cell = c := by
    rw [bin_sampledAt]
    rfl
  have hmeasured : ((g.cells.map (builder.sampledAt g)).toArray.map
      (·.measured builder.config.minNormalY)) = builder.measured g := by
    rw [measured, List.map_toArray, List.map_map]
    rfl
  have hmem : builder.sampledAt g c ∈ (g.cells.map (builder.sampledAt g)).toArray :=
    List.mem_toArray.mpr (List.mem_map_of_mem (Grid.mem_cells_iff.mpr hc))
  have hle := layerCount_le_foldl builder.config.minNormalY hmem
  rw [hmeasured] at hle
  rw [fittedAt, ← fitAll_eq_stack hle, hcell]
  rfl

/-- A tile that is sampled for a level has a level, whichever surfaces count. -/
theorem exists_levelsAt (hc : g.contains c = true) (h : 0 < (builder.sampledAt g c).layerCount) :
    ∃ layer, (builder.levelsAt g c)[0]? = some layer := by
  let minNormalY := builder.config.minNormalY
  have hview : ((builder.sampledAt g c).views minNormalY g (builder.measured g))[0]?
      = some (.of (builder.sampledAt g c).bin.cell g.tileSize
        (.of minNormalY (builder.measured g) g 0) (.of minNormalY (builder.sampledAt g c) 0)) := by
    rw [SampledTile.views, List.getElem?_map, List.getElem?_range h, Option.map_some]
  obtain ⟨layer, hlayer⟩ := Layer.exists_stack hview
    (Layer.isFinite_lowest _ (SampledTile.isFinite_floorMin minNormalY h))
  rw [levelsAt, fittedAt_eq_stack hc, List.getElem?_map, hlayer]
  exact ⟨_, rfl⟩

/-- A small build has a level if one of its tiles is sampled for one. -/
theorem exists_level (hgrid : builder.grid = .ok g)
    (hsmall : g.tileCount * levelLimit < UInt32.size) (hc : g.contains c = true)
    (h : 0 < (builder.sampledAt g c).layerCount) :
    ∃ (b : Board) (k : Nat) (level : Level), builder.build = .ok b ∧
      b.levels[k]? = some level := by
  obtain ⟨b, hbuild, rfl, -⟩ := exists_build hgrid
    (Nat.lt_of_le_of_lt (builder.length_layers_le g) hsmall)
  obtain ⟨layer, hlayer⟩ := exists_levelsAt hc h
  obtain ⟨k, hlevel⟩ := exists_level_of_build hbuild hc hlayer
  exact ⟨b, k, _, hbuild, hlevel⟩

/-! ### Levels of boxes -/

/-- Each level of a built board of boxes has the data of one of them if the inclination is above
`flatInclination`, and plain data otherwise. -/
theorem box_levels_kept (hboxes : builder.HasOnlyBoxes) {b : Board}
    (hbuild : builder.build = .ok b) {k : Nat} {level : Level}
    (hlevel : b.levels[k]? = some level) :
    ∃ data, b.data[k]? = some data ∧
      (b.levels.size ≤ UInt32.size → level.dataIndex.toNat = k) ∧
      if BuildConfig.flatInclination < builder.config.maxInclination then
        ∃ solid ∈ builder.solids, data.Keeps solid.data b.payloadSize.toNat
      else data.Keeps ⟨.plain, []⟩ b.payloadSize.toNat := by
  obtain ⟨data, hdata, hindex, hbox, hplain⟩ := keeps_of_boxes hboxes hbuild hlevel
  rw [BuildConfig.minNormalY_lt_one_iff] at hbox hplain
  refine ⟨data, hdata, hindex, ?_⟩
  split
  case isTrue hlimit => exact hbox hlimit
  case isFalse hlimit => exact hplain hlimit

/-- A level of the shelf with labels keeps one of the labels. -/
theorem labelledShelf_levels_kept : labelledShelf.HasOnlyBoxes ∧
    ∃ (b : Board) (k : Nat) (level : Level) (data : LevelData) (i : Nat),
      labelledShelf.build = .ok b ∧ b.levels[k]? = some level ∧ b.data[k]? = some data ∧
      i < 4 ∧ data.Keeps (label i) b.payloadSize.toNat := by
  have hboxes : labelledShelf.HasOnlyBoxes := by
    unfold HasOnlyBoxes
    decide
  obtain ⟨b, k, level, hbuild, hlevel⟩ := labelledShelf.exists_level (g := shelfGrid)
    (c := ⟨0, 0⟩) (by decide) (by decide) rfl
    (by rw [sampledAt_labelledShelf]; exact Nat.zero_lt_succ 2)
  obtain ⟨data, hdata, -, hkept⟩ := box_levels_kept hboxes hbuild hlevel
  rw [if_pos (by decide)] at hkept
  obtain ⟨solid, hsolid, hkeeps⟩ := hkept
  obtain ⟨i, hi, hlabel⟩ : ∃ i < 4, solid.data = label i := by
    have hlabels : ∀ solid ∈ labelledShelf.solids, ∃ i < 4, solid.data = label i := by decide
    exact hlabels solid hsolid
  exact ⟨hboxes, b, k, level, data, i, hbuild, hlevel, hdata, hi, hlabel ▸ hkeeps⟩

/-- The shelf with labels, where no surface may be inclined. -/
def flatShelf : Builder where
  config := { labelledShelf.config with maxInclination := .zero }
  solids := labelledShelf.solids

/-- A level of the flat shelf is not that of any of its boxes. -/
theorem flatShelf_loses_boxes : flatShelf.HasOnlyBoxes ∧
    ∃ (b : Board) (k : Nat) (level : Level) (data : LevelData),
      flatShelf.build = .ok b ∧ b.levels[k]? = some level ∧ b.data[k]? = some data ∧
      data.header.instanceId = 0 ∧
      ¬ ∃ solid ∈ flatShelf.solids, data.Keeps solid.data b.payloadSize.toNat := by
  have hboxes : flatShelf.HasOnlyBoxes := by
    unfold HasOnlyBoxes
    decide
  have hsampled : flatShelf.sampledAt shelfGrid ⟨0, 0⟩ = shelfTile := sampledAt_labelledShelf
  obtain ⟨b, k, level, hbuild, hlevel⟩ := flatShelf.exists_level (g := shelfGrid) (c := ⟨0, 0⟩)
    (by decide) (by decide) rfl (by rw [hsampled]; exact Nat.zero_lt_succ 2)
  obtain ⟨data, hdata, -, -, hplain⟩ := keeps_of_boxes hboxes hbuild hlevel
  have hkeeps := hplain (mt (BuildConfig.minNormalY_lt_one_iff _).mp (by decide))
  refine ⟨hboxes, b, k, level, data, hbuild, hlevel, hdata, hkeeps.instanceId, ?_⟩
  rintro ⟨solid, hsolid, hbox⟩
  have hlabels : ∀ solid ∈ flatShelf.solids, solid.data.header.instanceId ≠ 0 := by decide
  exact hlabels solid hsolid (hbox.instanceId.symm.trans hkeeps.instanceId)

end Builder

end Battlemap
