import Battlemap.Proofs.Build.Refit

/-!
# `Battlemap.Proofs.Build.Locality`: a tile is fitted to its surroundings

Fitting works on buffers for the whole map, and the number of these depends on all tiles. Yet
what it finds for a tile depends on that tile and the up to eight ones around it only. The
statistics of a tile are those of its own rays. A smoothed height at one of its rays is an
average over places at most one step away, which are rays of the tile or of one next to it
(`near_of_mem_placesAround`). So two maps that agree on the rays around a tile have the same
smoothed heights there (`samplesOf_congr`), and the levels are stacked from these
(`SampledTile.views_congr`).

`fitLayers_local` joins this to what `Battlemap.Proofs.Build.Refit` says of the passes in
place: they keep what was sampled, never miss an index, and can be run again.
`fitLayers_push_of_far` is what locality means for the solids of a build: one more of them
leaves the levels of a tile alone unless it can reach the tile or one next to it.
-/

set_option autoImplicit false

namespace Battlemap

/-- Two cells are at most one step apart along each axis. -/
def Cell.Near (c d : Cell) : Prop :=
  (c.x.toNat ≤ d.x.toNat + 1 ∧ d.x.toNat ≤ c.x.toNat + 1) ∧
    c.z.toNat ≤ d.z.toNat + 1 ∧ d.z.toNat ≤ c.z.toNat + 1

/-- A cell is near itself. -/
theorem Cell.near_refl (c : Cell) : c.Near c := by
  unfold Near
  omega

/-- The tiles at a place have the same rays and as many levels. -/
def AgreeAt (tiles tiles' : Array SampledTile) (i : Nat) : Prop :=
  ∀ tile tile', tiles[i]? = some tile → tiles'[i]? = some tile' →
    tile.rays = tile'.rays ∧ tile.layerCount = tile'.layerCount

/-- The statistics of a tile are those of its rays. -/
theorem LayerStatistics.of_congr {tile tile' : SampledTile} (h : tile.rays = tile'.rays)
    (minNormalY : Single) : of minNormalY tile = of minNormalY tile' := by
  funext layer
  simp only [of, SampledTile.slot, h]

/-- The window around a ray of a tile holds rays of the tiles near it. -/
theorem near_of_mem_placesAround {g : Grid} {c : Cell} (hc : g.contains c = true) {n : Nat}
    (hn : n < raysPerTile) {p : Nat × Nat}
    (hp : p ∈ HeightField.placesAround (g.height.toNat * raysPerAxis) (g.width.toNat * raysPerAxis)
      (c.z.toNat * raysPerAxis + n / raysPerAxis) (c.x.toNat * raysPerAxis + n % raysPerAxis)) :
    ∃ d, g.contains d = true ∧ c.Near d ∧ ∃ m < raysPerTile,
      p = (d.z.toNat * raysPerAxis + m / raysPerAxis,
        d.x.toNat * raysPerAxis + m % raysPerAxis) := by
  obtain ⟨hx, hz⟩ := Grid.contains_iff.mp hc
  obtain ⟨hrow, hcolumn⟩ := HeightField.rayPlace_lt (c := c)
    (Nat.mul_le_mul_right raysPerAxis hz) (Nat.mul_le_mul_right raysPerAxis hx) hn
  obtain ⟨⟨hprow, hrowlow, hrowhigh⟩, hpcolumn, hcolumnlow, hcolumnhigh⟩ :=
    HeightField.mem_placesAround hrow hcolumn hp
  obtain ⟨d, hd, m, hm, hprow, hpcolumn⟩ := exists_ray hprow hpcolumn
  refine ⟨d, hd, ?_, m, hm, Prod.ext hprow hpcolumn⟩
  -- One step from a ray of `c` leads at most to the first or last ray of the next tile.
  rw [hprow] at hrowlow hrowhigh
  rw [hpcolumn] at hcolumnlow hcolumnhigh
  unfold Cell.Near
  unfold raysPerTile at hn hm
  unfold raysPerAxis at *
  omega

section
variable {g : Grid} {tiles tiles' : Array SampledTile} (h : g.Sampled tiles)
  (h' : g.Sampled tiles') (minNormalY : Single)

include h h'

/-- The map has the same for a ray of a tile on which two arrays agree. -/
theorem sampleAt_congr {d : Cell} (hd : g.contains d = true)
    (hagree : AgreeAt tiles tiles' (g.tileIndex d)) (layer slot : Nat)
    (side : LayerStatistics → SideStatistics) {n : Nat} (hn : n < raysPerTile) :
    LayerField.sampleAt minNormalY (tiles.map (·.measured minNormalY)) g layer slot side
        (d.z.toNat * raysPerAxis + n / raysPerAxis) (d.x.toNat * raysPerAxis + n % raysPerAxis)
      = LayerField.sampleAt minNormalY (tiles'.map (·.measured minNormalY)) g layer slot side
        (d.z.toNat * raysPerAxis + n / raysPerAxis)
        (d.x.toNat * raysPerAxis + n % raysPerAxis) := by
  obtain ⟨tile, hat, hcell⟩ := h.tile_at hd
  obtain ⟨tile', hat', hcell'⟩ := h'.tile_at hd
  obtain ⟨hrays, hcount⟩ := hagree tile tile' hat hat'
  have hsample :=
    LayerField.sampleAt_ray h minNormalY (Array.mem_of_getElem? hat) layer slot side hn
  have hsample' :=
    LayerField.sampleAt_ray h' minNormalY (Array.mem_of_getElem? hat') layer slot side hn
  rw [hcell] at hsample
  rw [hcell'] at hsample'
  rw [hsample, hsample', hrays, hcount, LayerStatistics.of_congr hrays]

variable {c : Cell} (hc : g.contains c = true)
  (hagree : ∀ d, g.contains d = true → c.Near d → AgreeAt tiles tiles' (g.tileIndex d))

include hc hagree

/-- The smoothed heights of a tile are the same for maps that agree around it. -/
theorem samplesOf_congr (layer slot : Nat) (side : LayerStatistics → SideStatistics) :
    (LayerField.rawSide minNormalY (tiles.map (·.measured minNormalY)) g layer slot
        side).smoothed.samplesOf c
      = (LayerField.rawSide minNormalY (tiles'.map (·.measured minNormalY)) g layer slot
        side).smoothed.samplesOf c := by
  obtain ⟨hx, hz⟩ := Grid.contains_iff.mp hc
  have hrows := Nat.mul_le_mul_right raysPerAxis hz
  have hcolumns := Nat.mul_le_mul_right raysPerAxis hx
  have hraw (tiles : Array MeasuredTile) (p : Nat × Nat)
      (hrow : p.1 < g.height.toNat * raysPerAxis) (hcolumn : p.2 < g.width.toNat * raysPerAxis) :
      (LayerField.rawSide minNormalY tiles g layer slot side).sample p.1 p.2
        = LayerField.sampleAt minNormalY tiles g layer slot side p.1 p.2 :=
    LayerField.sample_rawSide minNormalY tiles layer slot side hrow hcolumn
  rw [HeightField.samplesOf_smoothed (LayerField.size_rawSide ..) hrows hcolumns (hraw _),
    HeightField.samplesOf_smoothed (LayerField.size_rawSide ..) hrows hcolumns (hraw _)]
  refine List.filterMap_congr fun n hn => ?_
  have hn := List.mem_range.mp hn
  -- Every place of the window is a ray of a tile on which the two maps agree.
  have hwindow : ∀ p ∈ HeightField.placesAround (g.height.toNat * raysPerAxis)
      (g.width.toNat * raysPerAxis) (c.z.toNat * raysPerAxis + n / raysPerAxis)
      (c.x.toNat * raysPerAxis + n % raysPerAxis),
      LayerField.sampleAt minNormalY (tiles.map (·.measured minNormalY)) g layer slot side p.1 p.2
        = LayerField.sampleAt minNormalY (tiles'.map (·.measured minNormalY)) g layer slot side
          p.1 p.2 := by
    intro p hp
    obtain ⟨d, hd, hnear, m, hm, rfl⟩ := near_of_mem_placesAround hc hn hp
    exact sampleAt_congr h h' minNormalY hd (hagree d hd hnear) layer slot side hm
  dsimp only [LayerField.rawSide]
  rw [List.map_congr_left hwindow,
    sampleAt_congr h h' minNormalY hc (hagree c hc c.near_refl) layer slot side hn]

/-- So a tile has the same views on its levels. -/
theorem SampledTile.views_congr {tile tile' : SampledTile} (hcell : tile.bin.cell = c)
    (hcell' : tile'.bin.cell = c) (hrays : tile.rays = tile'.rays)
    (hcount : tile.layerCount = tile'.layerCount) :
    tile.views minNormalY g (tiles.map (·.measured minNormalY))
      = tile'.views minNormalY g (tiles'.map (·.measured minNormalY)) := by
  unfold views
  rw [hcount, hcell, hcell']
  refine List.map_congr_left fun i _ => ?_
  have hsamples := samplesOf_congr h h' minNormalY hc hagree i
  rw [LayerStatistics.of_congr hrays, LayerView.of, LayerView.of]
  simp only [LayerSide.of, LayerField.of, hsamples]

/-- Fitting finds the same statistics and levels for a tile in maps that agree around it. -/
theorem fitLayers_congr : ∃ tile tile',
    (fitLayers minNormalY g tiles)[g.tileIndex c]? = some tile ∧
      (fitLayers minNormalY g tiles')[g.tileIndex c]? = some tile' ∧
      tile.measured.layers = tile'.measured.layers ∧ tile.layers = tile'.layers := by
  obtain ⟨tile, hat, hcell⟩ := h.tile_at hc
  obtain ⟨tile', hat', hcell'⟩ := h'.tile_at hc
  obtain ⟨hrays, hcount⟩ := hagree c hc c.near_refl tile tile' hat hat'
  rw [fitLayers_eq, fitLayers_eq, Array.getElem?_map, Array.getElem?_map, hat, hat']
  refine ⟨_, _, rfl, rfl, ?_, ?_⟩
  · simp only [SampledTile.measured, hcount, LayerStatistics.of_congr hrays]
  · exact congrArg Layer.stack
      (SampledTile.views_congr h h' minNormalY hc hagree hcell hcell' hrays hcount)

end

/-- Fitting is local. Whatever two maps hold elsewhere, they have the same statistics and the
same levels in a tile if they agree on the rays and level counts of the tile and of those
next to it, corners included. Fitting keeps what was sampled. And it reads nothing else: the
tiles may have been fitted before, once or any other way, and fitting them in place comes to
the same, with no index out of range on the way. -/
theorem fitLayers_local (minNormalY : Single) {g : Grid} {tiles : Array SampledTile}
    (h : g.Sampled tiles) :
    (∀ tiles' : Array SampledTile, g.Sampled tiles' → ∀ c, g.contains c = true →
      (∀ d, g.contains d = true → c.Near d → AgreeAt tiles tiles' (g.tileIndex d)) →
        ∃ tile tile', (fitLayers minNormalY g tiles)[g.tileIndex c]? = some tile ∧
          (fitLayers minNormalY g tiles')[g.tileIndex c]? = some tile' ∧
          tile.measured.layers = tile'.measured.layers ∧ tile.layers = tile'.layers) ∧
    (fitLayers minNormalY g tiles).map FittedTile.sampled = tiles ∧
    (∀ old : Array FittedTile, old.map FittedTile.sampled = tiles →
      refit? minNormalY g old = some (fitLayers minNormalY g tiles)) ∧
    refit? minNormalY g (fitLayers minNormalY g tiles) = some (fitLayers minNormalY g tiles) := by
  have hkeeps : (fitLayers minNormalY g tiles).map FittedTile.sampled = tiles := by
    rw [fitLayers_eq, Array.map_map]
    exact Array.map_id tiles
  exact ⟨fun tiles' h' c hc hagree => fitLayers_congr h h' minNormalY hc hagree, hkeeps,
    fun old => refit?_eq h minNormalY, refit?_eq h minNormalY hkeeps⟩

/-- Three tiles in a row. -/
def rowGrid : Grid := ⟨3, 1, .one, .zero, .zero, .one⟩

/-- A tile in which every ray meets a floor. -/
def pavedTile (x : UInt32) : SampledTile :=
  ⟨⟨⟨x, 0⟩, [0], [], []⟩, Array.replicate raysPerTile #[⟨.down, .zero, 0⟩, ⟨.up, .one, 0⟩], 1⟩

/-- A row of floors, up to the last tile. -/
def pavedRow (last : SampledTile) : Array SampledTile := #[pavedTile 0, pavedTile 1, last]

/-- The row is a sampled map, whether its last tile has all rays or none. -/
theorem sampled_pavedRow {last : SampledTile} (hcell : last.bin.cell = ⟨2, 0⟩)
    (hlast : last.rays.size = raysPerTile ∨ last.rays.size = 0 ∧ last.layerCount = 0) :
    rowGrid.Sampled (pavedRow last) where
  cells := by
    simp only [pavedRow, List.map_cons, hcell]
    rfl
  rays := by
    simp only [pavedRow, List.mem_toArray, List.mem_cons, List.not_mem_nil, or_false]
    rintro tile (rfl | rfl | rfl)
    · exact .inl Array.size_replicate
    · exact .inl Array.size_replicate
    · exact hlast

/-- Two rows agree on all tiles but the last one. -/
theorem agreeAt_pavedRow (last last' : SampledTile) {i : Nat} (hi : i < 2) :
    AgreeAt (pavedRow last) (pavedRow last') i := by
  intro tile tile' hat hat'
  have hsame : tile = tile' := by
    rcases (by omega : i = 0 ∨ i = 1) with rfl | rfl <;> exact (Option.some.inj hat).symm.trans
      (Option.some.inj hat')
  exact ⟨congrArg SampledTile.rays hsame, congrArg SampledTile.layerCount hsame⟩

/-- The last tile of the row does not count for the first one. -/
theorem pavedRow_local :
    (∃ tile tile',
      (fitLayers .half rowGrid (pavedRow (pavedTile 2)))[0]? = some tile ∧
      (fitLayers .half rowGrid (pavedRow (.unsampled ⟨⟨2, 0⟩, [], [], []⟩)))[0]? = some tile' ∧
      tile.measured.layers = tile'.measured.layers ∧ tile.layers = tile'.layers) ∧
    (fitLayers .half rowGrid (pavedRow (pavedTile 2))).map FittedTile.sampled
      = pavedRow (pavedTile 2) ∧
    refit? .half rowGrid (fitLayers .half rowGrid (pavedRow (pavedTile 2)))
      = some (fitLayers .half rowGrid (pavedRow (pavedTile 2))) := by
  have h : rowGrid.Sampled (pavedRow (pavedTile 2)) :=
    sampled_pavedRow rfl (.inl Array.size_replicate)
  have h' : rowGrid.Sampled (pavedRow (.unsampled ⟨⟨2, 0⟩, [], [], []⟩)) :=
    sampled_pavedRow rfl (.inr ⟨rfl, rfl⟩)
  obtain ⟨hlocal, hkeeps, -, hagain⟩ := fitLayers_local .half h
  refine ⟨hlocal _ h' ⟨0, 0⟩ (by decide) fun d hd hnear => agreeAt_pavedRow _ _ ?_, hkeeps,
    hagain⟩
  -- Near the first tile are only the first two.
  have hz : d.z.toNat = 0 := Nat.lt_one_iff.mp (Grid.contains_iff.mp hd).2
  have hx : d.x.toNat ≤ 0 + 1 := hnear.1.2
  rw [Grid.tileIndex, hz, Nat.zero_mul]
  omega

/-! ### Solids that are far away -/

/-- The solid reaches neither as a whole nor with a polygon of its mesh into the tile. -/
def Solid.FarFrom (s : Solid) (g : Grid) (c : Cell) : Prop :=
  reaches c (g.tileRange? s.bounds) = false ∧
    ∀ mesh, s.mesh = some mesh → ∀ p ∈ mesh.polygons, reaches c (g.tileRange? p.bounds) = false

section
variable {g : Grid} {c : Cell} {solids : Array Solid} {s : Solid}

/-- A solid that is far from a tile is not registered in its bin. -/
theorem TileBin.of_push_of_far (hfar : s.FarFrom g c) :
    TileBin.of (reachOf g (solids.push s).toList) c = TileBin.of (reachOf g solids.toList) c := by
  obtain ⟨hbounds, hpolygons⟩ := hfar
  -- By itself the solid leaves the bin empty.
  have hpart : TileBin.of [SolidReach.of g s solids.size] c = TileBin.fresh c := by
    cases hmesh : s.mesh with
    | none => simp [of, fresh, SolidReach.of, hmesh, hbounds]
    | some mesh =>
      have hplaces : polygonsAt c (mesh.polygons.toList.map fun p => g.tileRange? p.bounds)
          = [] := by
        refine List.eq_nil_iff_forall_not_mem.mpr fun k hk => ?_
        obtain ⟨range, hrange, hreaches⟩ := mem_polygonsAt_iff.mp hk
        obtain ⟨p, hp, rfl⟩ := List.mem_map.mp (List.mem_of_getElem? hrange)
        rw [hpolygons mesh hmesh p (Array.mem_toList_iff.mp hp)] at hreaches
        cases hreaches
      simp [of, fresh, SolidReach.of, hmesh, hbounds, hplaces]
  rw [Array.toList_push, reachOf_append, of_append, Array.length_toList, hpart]
  simp [fresh, of]

/-- What a bin holds is found among the solids that it was filled with. -/
theorem TileBin.Registered.targets_push {bin : TileBin} (h : bin.Registered solids g c)
    (s : Solid) : bin.targets (solids.push s) = bin.targets solids := by
  -- The solid is put behind the others, so the places of these lead where they did.
  have hsame {i : Nat} {t : Solid} (hi : solids[i]? = some t) :
      (solids.push s)[i]? = solids[i]? := by
    have hlt := (Array.getElem?_eq_some_iff.mp hi).1
    rw [Array.getElem?_push, if_neg (Nat.ne_of_lt hlt)]
  have hboxes : ∀ i ∈ bin.boxes, (solids.push s)[i]? = solids[i]? := by
    intro i hi
    obtain ⟨t, ht, -⟩ := (h.mem_boxes i).mp hi
    exact hsame ht
  have hmeshes : ∀ entry ∈ bin.meshes, (solids.push s)[entry.1]? = solids[entry.1]? := by
    intro entry hentry
    obtain ⟨t, -, ht, -⟩ := h.mem_polygons entry.1 entry.2 hentry
    exact hsame ht
  unfold targets
  congr 1
  · exact List.filterMap_congr fun i hi => by rw [hboxes i hi]
  · rw [List.flatMap_def, List.flatMap_def]
    refine congrArg List.flatten (List.map_congr_left fun entry hentry => ?_)
    dsimp only
    rw [hmeshes entry hentry]

/-- A tile is sampled alike with and without a solid that is far from it. -/
theorem getElem?_sampled_push_of_far (hc : g.contains c = true) (hfar : s.FarFrom g c)
    (start : Single) :
    ((binSolids (solids.push s) g).map (SampledTile.of (solids.push s) g start))[g.tileIndex c]?
      = ((binSolids solids g).map (SampledTile.of solids g start))[g.tileIndex c]? := by
  have htargets := (TileBin.registered_of solids g c).targets_push s
  rw [Array.getElem?_map, Array.getElem?_map, getElem?_binSolids hc, getElem?_binSolids hc,
    TileBin.of_push_of_far hfar, Option.map_some, Option.map_some]
  simp only [SampledTile.of, SampledTile.castAll, htargets]

end

/-- One more solid does not change the statistics and the levels of a tile, if it is far from
the tile and from those next to it. -/
theorem fitLayers_push_of_far (minNormalY start : Single) {g : Grid} {c : Cell}
    (hc : g.contains c = true) (solids : Array Solid) {s : Solid}
    (hfar : ∀ d, g.contains d = true → c.Near d → s.FarFrom g d) :
    let fitted (solids : Array Solid) :=
      fitLayers minNormalY g ((binSolids solids g).map (SampledTile.of solids g start))
    ∃ tile tile', (fitted (solids.push s))[g.tileIndex c]? = some tile ∧
      (fitted solids)[g.tileIndex c]? = some tile' ∧
      tile.measured.layers = tile'.measured.layers ∧ tile.layers = tile'.layers := by
  refine fitLayers_congr (.of_binSolids (solids.push s) g start) (.of_binSolids solids g start)
    minNormalY hc fun d hd hnear tile tile' hat hat' => ?_
  rw [getElem?_sampled_push_of_far hd (hfar d hd hnear)] at hat
  cases hat.symm.trans hat'
  exact ⟨rfl, rfl⟩

end Battlemap
