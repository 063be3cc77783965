import Battlemap.Build.TileBin
import Battlemap.Proofs.Grid
import Battlemap.Proofs.InPlace
import Battlemap.Proofs.Number.Word
import Mathlib.Data.List.Induction
import Mathlib.Data.List.Nodup

/-!
# `Battlemap.Proofs.Build.Registration`: what is registered in the bins of a grid

The bins of a grid are filled in place. Solid after solid, entry after entry is added to the
bins of a rectangle of tiles. What a tile holds in the end is said without that order:
`TileBin.Registered` lists, for one tile, the boxes, polygons and destructible solids whose
range of tiles contains it, each list in ascending order. `binSolids_registers` proves it for
every tile of every grid.

Registering one entry changes a bin exactly if the range of the entry contains the tile
(`Grid.getElem?_register`): a range has each of its tiles once and none outside of the grid,
and different tiles have different places. So all entries together come to those of the tile,
one after the other (`Grid.getElem?_foldl_register`). They belong to solids in ascending
order. A mesh is therefore always the last one of the bin, and its polygons are collected
behind all others (`TileBin.foldl_addPolygon`). `TileBin.of` is the bin that this comes to,
and `binSolids_eq` says so for the grid as a whole.
-/

set_option autoImplicit false

namespace Battlemap

/-! ### The tiles of a range -/

/-- Whether a coordinate is in the range. -/
def AxisRange.contains (r : AxisRange) (index : UInt32) : Bool :=
  decide (r.low ≤ index) && decide (index ≤ r.high)

/-- Whether a tile is in the rectangle. -/
def TileRange.contains (r : TileRange) (c : Cell) : Bool :=
  r.columns.contains c.x && r.rows.contains c.z

/-- Whether a range, if there is one, contains a tile. -/
def reaches (c : Cell) (range : Option TileRange) : Bool := range.any (·.contains c)

/-- The tiles of a range are those with a column and a row within its ends. -/
theorem TileRange.mem_cells_iff {r : TileRange} {c : Cell} : c ∈ r.cells ↔ r.contains c = true := by
  simp [cells, Grid.mem_rectangle_iff, contains, AxisRange.contains, UInt32.le_iff_toNat_le]

/-- No tile is listed twice. -/
theorem TileRange.nodup_cells (r : TileRange) : r.cells.Nodup := Grid.nodup_rectangle _ _

/-- The coordinates of an axis within a range of words. -/
def AxisRange.within? (first last final : Int64) : Option AxisRange :=
  if last < 0 ∨ final < first then none
  else
    some ⟨(if first < 0 then 0 else first).toUInt64.toUInt32,
      (if final < last then final else last).toUInt64.toUInt32⟩

/-- No range goes beyond the last coordinate. -/
theorem AxisRange.high_le_of_within? {first last final : Int64} {r : AxisRange}
    (h : within? first last final = some r) (hfinal : 0 ≤ final.toInt)
    (hbound : final.toInt < 2 ^ 32) : r.high.toNat ≤ final.toInt := by
  unfold within? at h
  split at h
  · cases h
  · next hnonempty =>
    obtain rfl := Option.some.inj h
    rw [Int64.lt_iff_toInt_lt, show (0 : Int64).toInt = 0 from rfl] at hnonempty
    have hlast : 0 ≤ last.toInt := by omega
    dsimp only
    split
    · exact Int.le_of_eq (toNat_toUInt32_toUInt64 hfinal hbound)
    · next hle =>
      rw [Int64.lt_iff_toInt_lt] at hle
      rw [toNat_toUInt32_toUInt64 hlast (by omega)]
      omega

/-- A range on an axis with tiles ends at one of them. -/
theorem high_lt_of_axisRange? {low high origin tileSize : Single} {count : UInt32} {r : AxisRange}
    (h : axisRange? low high origin tileSize count = some r) (hcount : 0 < count.toNat) :
    r.high.toNat < count.toNat := by
  have hsize := count.toNat_lt
  have hcast : (Int64.ofNat count.toNat).toInt = count.toNat := Int64.toInt_ofNat_of_lt (by omega)
  have hfinal : (Int64.ofNat count.toNat - 1).toInt = count.toNat - 1 := by
    rw [toInt_pred, hcast]
    intro hmin
    rw [hmin, show Int64.minValue.toInt = -2 ^ 63 from rfl] at hcast
    omega
  have hle := AxisRange.high_le_of_within? h (by omega) (by omega)
  omega

/-- The tiles that a box can reach are tiles of the grid, if this has any. -/
theorem Grid.contains_of_mem_cells {g : Grid} {b : Box} {r : TileRange} {c : Cell}
    (h : g.tileRange? b = some r) (htiles : 0 < g.tileCount) (hc : c ∈ r.cells) :
    g.contains c = true := by
  obtain ⟨columns, hcolumns, h⟩ := Option.bind_eq_some_iff.mp h
  obtain ⟨rows, hrows, h⟩ := Option.bind_eq_some_iff.mp h
  obtain rfl := Option.some.inj h
  obtain ⟨⟨-, hx⟩, -, hz⟩ := Grid.mem_rectangle_iff.mp hc
  have hsize : g.width.toNat ≠ 0 ∧ g.height.toNat ≠ 0 :=
    Nat.mul_ne_zero_iff.mp (Nat.ne_of_gt htiles)
  have hwidth := high_lt_of_axisRange? hcolumns (Nat.pos_of_ne_zero hsize.1)
  have hheight := high_lt_of_axisRange? hrows (Nat.pos_of_ne_zero hsize.2)
  exact contains_iff.mpr ⟨Nat.lt_of_le_of_lt hx hwidth, Nat.lt_of_le_of_lt hz hheight⟩

/-! ### One entry in all its tiles -/

namespace Grid

variable {g : Grid} {c : Cell}

/-- A pass over different tiles changes each of them once and no other one. -/
theorem getElem?_foldl_modify {change : TileBin → TileBin} {cells : List Cell}
    (hnodup : cells.Nodup) (hcells : ∀ d ∈ cells, g.contains d = true)
    (hc : g.contains c = true) (bins : Array TileBin) :
    (cells.foldl (fun bins d => bins.modify (g.tileIndex d) change) bins)[g.tileIndex c]?
      = bins[g.tileIndex c]?.map fun bin => if c ∈ cells then change bin else bin := by
  by_cases hmem : c ∈ cells
  · have hplaces : (cells.map g.tileIndex).Nodup :=
      hnodup.map_on fun d hd e he => tileIndex_inj (hcells d hd) (hcells e he)
    rw [getElem?_foldl_modify_of_mem hplaces hmem]
    simp only [if_pos hmem]
  · have hplace : g.tileIndex c ∉ cells.map g.tileIndex := by
      rw [List.mem_map]
      rintro ⟨d, hd, heq⟩
      exact hmem (tileIndex_inj (hcells d hd) hc heq ▸ hd)
    rw [getElem?_foldl_modify_of_not_mem hplace]
    simp only [if_neg hmem, Option.map_id']

/-- Registering an entry does not change the number of bins. -/
theorem size_register (g : Grid) (bins : Array TileBin) (b : Box) (entry : BinEntry) :
    (g.register bins b entry).size = bins.size := by
  unfold register
  split
  · rfl
  · exact size_foldl (fun _ _ => Array.size_modify) _ bins

/-- An entry is added to the bin of a tile if its bounds can reach into the tile. -/
theorem getElem?_register (hc : g.contains c = true) (bins : Array TileBin) (b : Box)
    (entry : BinEntry) :
    (g.register bins b entry)[g.tileIndex c]? = bins[g.tileIndex c]?.map fun bin =>
      if reaches c (g.tileRange? b) then bin.add entry else bin := by
  -- There is the tile `c` at least, so the range does not leave the grid.
  have htiles : 0 < g.tileCount := Nat.zero_lt_of_lt (tileIndex_lt hc)
  unfold register
  split
  · next hrange => simp [hrange, reaches]
  · next range hrange =>
    rw [getElem?_foldl_modify range.nodup_cells
      (fun d hd => contains_of_mem_cells hrange htiles hd) hc]
    simp [hrange, reaches, TileRange.mem_cells_iff]

end Grid

/-! ### All entries in one bin -/

/-- The entries that are registered in the bin of a tile. -/
def Grid.entriesAt (g : Grid) (c : Cell) (entries : List (Box × BinEntry)) : List BinEntry :=
  (entries.filter fun (b, _) => reaches c (g.tileRange? b)).map Prod.snd

/-- After some entries, the bin of a tile has been given those that can reach the tile, in their
order. -/
theorem Grid.getElem?_foldl_register {g : Grid} {c : Cell} (hc : g.contains c = true)
    (entries : List (Box × BinEntry)) (bins : Array TileBin) :
    (entries.foldl (fun bins (b, entry) => g.register bins b entry) bins)[g.tileIndex c]?
      = bins[g.tileIndex c]?.map fun bin => (g.entriesAt c entries).foldl TileBin.add bin := by
  induction entries generalizing bins with
  | nil => simp [entriesAt]
  | cons first entries ih =>
    rw [List.foldl_cons, ih, getElem?_register hc, Option.map_map]
    congr 1
    funext bin
    simp only [Function.comp_apply, entriesAt, List.filter_cons]
    split <;> simp_all

/-! ### The bin of a tile -/

/-- The tiles that a solid can reach. -/
structure SolidReach where
  /-- The place of the solid in the list of solids. -/
  index : Nat
  /-- The tiles of each polygon of a mesh; `none` for a box. -/
  polygons : Option (List (Option TileRange))
  /-- The tiles of the solid as a whole. -/
  whole : Option TileRange
  bounds : Box
  destructible : Bool

/-- The tiles that a solid can reach. -/
def SolidReach.of (g : Grid) (solid : Solid) (index : Nat) : SolidReach :=
  { index := index
    polygons := solid.mesh.map fun mesh =>
      mesh.polygons.toList.map fun polygon => g.tileRange? polygon.bounds
    whole := g.tileRange? solid.bounds
    bounds := solid.bounds
    destructible := solid.isDestructible }

/-- The polygons of a mesh that can reach a tile, by their places. -/
def polygonsAt (c : Cell) (ranges : List (Option TileRange)) : List Nat :=
  (ranges.zipIdx.filter fun (range, _) => reaches c range).map Prod.snd

namespace TileBin

/-- The bin of a tile. -/
def of (reach : List SolidReach) (c : Cell) : TileBin :=
  { cell := c
    boxes := reach.filterMap fun solid =>
      if solid.polygons.isNone && reaches c solid.whole then some solid.index else none
    meshes := reach.filterMap fun solid =>
      match solid.polygons.map (polygonsAt c) with
      | none | some [] => none
      | some polygons => some (solid.index, polygons)
    destructibles := reach.filterMap fun solid =>
      if solid.destructible && reaches c solid.whole then some (solid.index, solid.bounds)
      else none }

variable {entries : List (Nat × List Nat)} {solid : Nat}

/-- The first polygon of the last solid opens a new list at the end. -/
theorem addPolygon_of_lt (h : ∀ entry ∈ entries, entry.1 < solid) (place : Nat) :
    addPolygon solid place entries = entries ++ [(solid, [place])] := by
  induction entries with
  | nil => rfl
  | cons entry entries ih =>
    have hlt := h entry List.mem_cons_self
    rw [addPolygon, if_neg (by omega), if_neg (by omega),
      ih fun other hother => h other (List.mem_cons_of_mem _ hother), List.cons_append]

/-- A further polygon of the last solid goes behind those of the solid. -/
theorem addPolygon_append_self (h : ∀ entry ∈ entries, entry.1 < solid) (places : List Nat)
    (place : Nat) :
    addPolygon solid place (entries ++ [(solid, places)])
      = entries ++ [(solid, places ++ [place])] := by
  induction entries with
  | nil => simp [addPolygon]
  | cons entry entries ih =>
    have hlt := h entry List.mem_cons_self
    rw [List.cons_append, addPolygon, if_neg (by omega), if_neg (by omega),
      ih fun other hother => h other (List.mem_cons_of_mem _ hother), List.cons_append]

/-- The polygons of one more solid make one more entry, unless there are none. -/
theorem foldl_addPolygon (h : ∀ entry ∈ entries, entry.1 < solid) (places : List Nat) :
    places.foldl (fun entries place => addPolygon solid place entries) entries
      = entries ++ if places = [] then [] else [(solid, places)] := by
  -- After the first polygon the solid is the last entry, where the others join it.
  have hrest : ∀ done rest : List Nat,
      rest.foldl (fun entries place => addPolygon solid place entries) (entries ++ [(solid, done)])
        = entries ++ [(solid, done ++ rest)] := by
    intro done rest
    induction rest generalizing done with
    | nil => simp
    | cons place rest ih => rw [List.foldl_cons, addPolygon_append_self h, ih]; simp
  cases places with
  | nil => simp
  | cons place places =>
    rw [List.foldl_cons, addPolygon_of_lt h, hrest]
    simp

/-- Registering polygons of one solid changes the meshes of a bin only. -/
theorem foldl_add_polygons (bin : TileBin) (solid : Nat) (places : List Nat) :
    (places.map (BinEntry.polygon solid)).foldl add bin
      = { bin with meshes :=
          places.foldl (fun entries place => addPolygon solid place entries) bin.meshes } := by
  induction places generalizing bin with
  | nil => rfl
  | cons place places ih => rw [List.map_cons, List.foldl_cons, ih]; rfl

end TileBin

/-- Entries find their tiles one by one. -/
theorem Grid.entriesAt_append (g : Grid) (c : Cell) (entries others : List (Box × BinEntry)) :
    g.entriesAt c (entries ++ others) = g.entriesAt c entries ++ g.entriesAt c others := by
  simp [entriesAt]

/-- A single entry is in the bin of a tile or not. -/
theorem Grid.entriesAt_singleton (g : Grid) (c : Cell) (b : Box) (entry : BinEntry) :
    g.entriesAt c [(b, entry)] = if reaches c (g.tileRange? b) then [entry] else [] := by
  simp only [entriesAt, List.filter_cons, List.filter_nil]
  split <;> rfl

/-- The entries of a solid in a tile: the whole of a box or the polygons that reach the tile, and
the solid once more if it can be destroyed. -/
theorem Solid.entriesAt_entries (g : Grid) (c : Cell) (s : Solid) (index : Nat) :
    g.entriesAt c (s.entries index) =
      s.mesh.elim (if reaches c (g.tileRange? s.bounds) then [.box index] else []) (fun mesh =>
        (polygonsAt c (mesh.polygons.toList.map fun p => g.tileRange? p.bounds)).map
          (BinEntry.polygon index))
      ++ if s.isDestructible && reaches c (g.tileRange? s.bounds) then
          [.destructible index s.bounds] else [] := by
  have hmesh (mesh : Mesh) :
      g.entriesAt c (mesh.polygons.toList.zipIdx.map (BinEntry.ofPolygon index))
        = (polygonsAt c (mesh.polygons.toList.map fun p => g.tileRange? p.bounds)).map
          (BinEntry.polygon index) := by
    simp [Grid.entriesAt, polygonsAt, BinEntry.ofPolygon, List.zipIdx_map, List.filter_map,
      Function.comp_def]
  unfold Solid.entries
  cases s.mesh <;> cases s.isDestructible <;>
    simp only [Grid.entriesAt_append, Grid.entriesAt_singleton, hmesh, Bool.true_and,
      Bool.false_and, Bool.false_eq_true, if_true, if_false, List.append_nil, Option.elim]

namespace TileBin

/-- Registering a solid adds what reaches the tile behind what is there. -/
theorem foldl_add_entries {g : Grid} {c : Cell} {bin : TileBin} {s : Solid} {index : Nat}
    (hcell : bin.cell = c) (hbefore : ∀ entry ∈ bin.meshes, entry.1 < index) :
    let part := of [SolidReach.of g s index] c
    (g.entriesAt c (s.entries index)).foldl add bin
      = ⟨c, bin.boxes ++ part.boxes, bin.meshes ++ part.meshes,
          bin.destructibles ++ part.destructibles⟩ := by
  obtain ⟨cell, boxes, meshes, destructibles⟩ := bin
  obtain rfl : cell = c := hcell
  rw [Solid.entriesAt_entries, List.foldl_append]
  -- A box has at most two entries for the tile. The polygons of a mesh come first, and make up
  -- one entry.
  cases hmesh : s.mesh with
  | none =>
    cases hreaches : reaches cell (g.tileRange? s.bounds) <;>
      cases hdestructible : s.isDestructible <;>
      simp [of, SolidReach.of, hmesh, hreaches, hdestructible, add]
  | some mesh =>
    rw [Option.elim_some, foldl_add_polygons, foldl_addPolygon hbefore]
    cases hplaces : polygonsAt cell (mesh.polygons.toList.map fun p => g.tileRange? p.bounds) <;>
      cases hreaches : reaches cell (g.tileRange? s.bounds) <;>
      cases hdestructible : s.isDestructible <;>
      simp [of, SolidReach.of, hmesh, hplaces, hreaches, hdestructible, add]

/-- The bin of two lists of solids holds what the bins of both hold, one behind the other. -/
theorem of_append (reach others : List SolidReach) (c : Cell) :
    of (reach ++ others) c
      = ⟨c, (of reach c).boxes ++ (of others c).boxes, (of reach c).meshes ++ (of others c).meshes,
          (of reach c).destructibles ++ (of others c).destructibles⟩ := by
  simp [of]

end TileBin

/-- What some solids can reach. -/
def reachOf (g : Grid) (solids : List Solid) : List SolidReach :=
  solids.zipIdx.map fun (s, index) => SolidReach.of g s index

/-- What solids can reach is listed solid by solid, with their places. -/
theorem mem_reachOf_iff {g : Grid} {solids : List Solid} {r : SolidReach} :
    r ∈ reachOf g solids ↔ ∃ i s, solids[i]? = some s ∧ r = SolidReach.of g s i := by
  simp only [reachOf, List.mem_map, Prod.exists, List.mem_zipIdx_iff_getElem?]
  exact ⟨fun ⟨s, i, hi, hr⟩ => ⟨i, s, hi, hr.symm⟩, fun ⟨i, s, hi, hr⟩ => ⟨s, i, hi, hr.symm⟩⟩

/-- One more solid is listed behind those before it. -/
theorem reachOf_append (g : Grid) (solids : List Solid) (s : Solid) :
    reachOf g (solids ++ [s]) = reachOf g solids ++ [SolidReach.of g s solids.length] := by
  simp [reachOf, List.zipIdx_append]

namespace TileBin

/-- A bin lists a mesh with its polygons that can reach the tile, if there is one. -/
theorem mem_meshes_of_iff {reach : List SolidReach} {c : Cell} {i : Nat} {places : List Nat} :
    (i, places) ∈ (of reach c).meshes ↔
      ∃ r ∈ reach, r.index = i ∧ r.polygons.map (polygonsAt c) = some places ∧ places ≠ [] := by
  simp only [of, List.mem_filterMap]
  refine exists_congr fun r => and_congr_right fun _ => ?_
  cases r.polygons.map (polygonsAt c) with
  | none => simp
  | some found =>
    cases found with
    | nil => simp
    | cons place found => simpa using fun _ h => h ▸ List.cons_ne_nil place found

/-- Registering the entries of all solids comes to the bin of the tile. -/
theorem foldl_add_solids (g : Grid) (c : Cell) (solids : List Solid) :
    (g.entriesAt c (solids.zipIdx.flatMap fun (s, index) => s.entries index)).foldl add (fresh c)
      = of (reachOf g solids) c := by
  -- Solid by solid from the first one, since each goes behind those before it.
  induction solids using List.reverseRecOn with
  | nil => rfl
  | append_singleton solids s ih =>
    rw [List.zipIdx_append, List.flatMap_append, Grid.entriesAt_append, List.foldl_append, ih]
    simp only [List.zipIdx_singleton, Nat.zero_add, List.flatMap_cons, List.flatMap_nil,
      List.append_nil]
    -- The meshes in the bin are solids before this one.
    have hbefore : ∀ entry ∈ (of (reachOf g solids) c).meshes, entry.1 < solids.length := by
      intro entry hentry
      obtain ⟨r, hr, hindex, -⟩ := mem_meshes_of_iff.mp hentry
      obtain ⟨i, s, hi, rfl⟩ := mem_reachOf_iff.mp hr
      rw [← hindex]
      exact (List.getElem?_eq_some_iff.mp hi).1
    have hcell : (of (reachOf g solids) c).cell = c := rfl
    rw [foldl_add_entries hcell hbefore, reachOf_append, of_append]

end TileBin

/-- Every tile of the grid has a bin with what can reach it. -/
theorem getElem?_binSolids {solids : Array Solid} {g : Grid} {c : Cell} (hc : g.contains c = true) :
    (binSolids solids g)[g.tileIndex c]? = some (.of (reachOf g solids.toList) c) := by
  have hfresh : ((g.cells.map TileBin.fresh).toArray)[g.tileIndex c]? = some (.fresh c) := by
    simp [Grid.getElem?_cells hc]
  unfold binSolids
  dsimp only
  rw [Grid.getElem?_foldl_register hc, hfresh, Option.map_some, TileBin.foldl_add_solids]

/-- There is a bin for each tile. -/
theorem size_binSolids (solids : Array Solid) (g : Grid) :
    (binSolids solids g).size = g.tileCount := by
  unfold binSolids
  dsimp only
  rw [size_foldl fun _ _ => Grid.size_register ..]
  simp [Grid.length_cells]

/-- The bins that are filled in place are those of the tiles, each found on its own. -/
theorem binSolids_eq (solids : Array Solid) (g : Grid) :
    binSolids solids g = (g.cells.map (TileBin.of (reachOf g solids.toList))).toArray := by
  refine Array.ext_getElem? fun k => ?_
  by_cases hk : k < g.tileCount
  · obtain ⟨c, hc, rfl⟩ := Grid.exists_tileIndex hk
    rw [getElem?_binSolids hc]
    simp [Grid.getElem?_cells hc]
  · rw [Array.getElem?_eq_none (by rw [size_binSolids]; omega),
      Array.getElem?_eq_none (by simp [Grid.length_cells]; omega)]

/-! ### What a bin holds -/

/-- A list without its duplicates has none. -/
theorem nodup_eraseDups : ∀ l : List Nat, l.eraseDups.Nodup
  | [] => List.nodup_nil
  | i :: l => by
    rw [List.eraseDups_cons, List.nodup_cons]
    exact ⟨by simp [List.mem_eraseDups], nodup_eraseDups _⟩
termination_by l => l.length
decreasing_by exact Nat.lt_succ_of_le (List.length_filter_le _ _)

/-- The places of polygons that can reach a tile ascend. -/
theorem pairwise_polygonsAt (c : Cell) (ranges : List (Option TileRange)) :
    (polygonsAt c ranges).Pairwise (· < ·) := by
  have hall : (ranges.zipIdx.map Prod.snd).Pairwise (· < ·) := by
    rw [List.zipIdx_map_snd]
    exact List.pairwise_lt_range'
  exact hall.sublist (List.filter_sublist.map _)

/-- The polygons at a tile are those whose ranges contain the tile. -/
theorem mem_polygonsAt_iff {c : Cell} {ranges : List (Option TileRange)} {k : Nat} :
    k ∈ polygonsAt c ranges ↔ ∃ range, ranges[k]? = some range ∧ reaches c range = true := by
  simp [polygonsAt, List.mem_zipIdx_iff_getElem?]

/-- Solids are listed by rising places. -/
theorem pairwise_reachOf (g : Grid) (solids : List Solid) :
    (reachOf g solids).Pairwise fun r s => r.index < s.index := by
  have hall : (solids.zipIdx.map Prod.snd).Pairwise (· < ·) := by
    rw [List.zipIdx_map_snd]
    exact List.pairwise_lt_range'
  exact List.pairwise_map.mpr (List.pairwise_map.mp hall)

namespace TileBin

/-- The tile has the solid among its boxes or its meshes. -/
def Holds (bin : TileBin) (i : Nat) : Prop := i ∈ bin.boxes ∨ i ∈ bin.meshes.map Prod.fst

instance (bin : TileBin) (i : Nat) : Decidable (bin.Holds i) :=
  inferInstanceAs (Decidable (_ ∨ _))

/-- The solids of a bin are those that it holds as boxes or as meshes. -/
@[simp] theorem mem_solids_iff {bin : TileBin} {i : Nat} : i ∈ bin.solids ↔ bin.Holds i := by
  rw [solids, List.mem_mergeSort, List.mem_eraseDups, List.mem_append, Holds]

/-- A tile lists each of its solids once. -/
theorem nodup_solids (bin : TileBin) : bin.solids.Nodup :=
  (List.mergeSort_perm _ _).nodup_iff.mpr (nodup_eraseDups _)

/-- A tile lists its solids in order. -/
theorem pairwise_solids (bin : TileBin) : bin.solids.Pairwise (· < ·) := by
  have hsorted : bin.solids.Pairwise fun i j => decide (i ≤ j) = true :=
    List.pairwise_mergeSort (by simpa using fun _ _ _ => Nat.le_trans)
      (by simpa using Nat.le_total) _
  have hle : bin.solids.Pairwise (· ≤ ·) := hsorted.imp of_decide_eq_true
  exact hle.imp₂ (fun _ _ => Nat.lt_of_le_of_ne) bin.nodup_solids

/-- The bin holds exactly what can reach its tile. -/
structure Registered (bin : TileBin) (solids : Array Solid) (g : Grid) (c : Cell) : Prop where
  cell : bin.cell = c
  boxes_ascend : bin.boxes.Pairwise (· < ·)
  mem_boxes : ∀ i, i ∈ bin.boxes ↔
    ∃ s, solids[i]? = some s ∧ s.mesh = none ∧ reaches c (g.tileRange? s.bounds) = true
  meshes_ascend : (bin.meshes.map Prod.fst).Pairwise (· < ·)
  mem_meshes : ∀ i, i ∈ bin.meshes.map Prod.fst ↔
    ∃ s mesh, solids[i]? = some s ∧ s.mesh = some mesh ∧
      ∃ p ∈ mesh.polygons, reaches c (g.tileRange? p.bounds) = true
  polygons_ascend : ∀ i places, (i, places) ∈ bin.meshes → places.Pairwise (· < ·)
  mem_polygons : ∀ i places, (i, places) ∈ bin.meshes →
    ∃ s mesh, solids[i]? = some s ∧ s.mesh = some mesh ∧
      ∀ k, k ∈ places ↔
        ∃ p, mesh.polygons[k]? = some p ∧ reaches c (g.tileRange? p.bounds) = true
  destructibles_ascend : (bin.destructibles.map Prod.fst).Pairwise (· < ·)
  mem_destructibles : ∀ i b, (i, b) ∈ bin.destructibles ↔
    ∃ s, solids[i]? = some s ∧ s.isDestructible = true ∧
      reaches c (g.tileRange? s.bounds) = true ∧ s.bounds = b
  solids_ascend : bin.solids.Pairwise (· < ·)
  mem_solids : ∀ i, i ∈ bin.solids ↔ i ∈ bin.boxes ∨ i ∈ bin.meshes.map Prod.fst

/-- A mesh in a bin belongs to a solid, and is listed with exactly its polygons that can reach
the tile. -/
theorem mem_polygons_of {solids : Array Solid} {g : Grid} {c : Cell} {i : Nat} {places : List Nat}
    (hmem : (i, places) ∈ (of (reachOf g solids.toList) c).meshes) :
    ∃ s mesh, solids[i]? = some s ∧ s.mesh = some mesh ∧
      ∀ k, k ∈ places ↔
        ∃ p, mesh.polygons[k]? = some p ∧ reaches c (g.tileRange? p.bounds) = true := by
  obtain ⟨r, hr, rfl, hplaces, -⟩ := mem_meshes_of_iff.mp hmem
  obtain ⟨i, s, hi, rfl⟩ := mem_reachOf_iff.mp hr
  simp only [SolidReach.of, Option.map_map, Option.map_eq_some_iff] at hplaces
  obtain ⟨mesh, hmesh, rfl⟩ := hplaces
  refine ⟨s, mesh, by simpa [SolidReach.of] using hi, hmesh, fun k => ?_⟩
  simp [mem_polygonsAt_iff]

/-- The bin of a tile holds exactly what can reach the tile. -/
theorem registered_of (solids : Array Solid) (g : Grid) (c : Cell) :
    (of (reachOf g solids.toList) c).Registered solids g c where
  cell := rfl
  boxes_ascend := by
    refine (pairwise_reachOf g solids.toList).filterMap _ fun r s hlt i hi j hj => ?_
    grind
  mem_boxes i := by
    simp [of, List.mem_filterMap, mem_reachOf_iff, SolidReach.of]
  meshes_ascend := by
    refine List.pairwise_map.mpr ?_
    refine (pairwise_reachOf g solids.toList).filterMap _ fun r s hlt i hi j hj => ?_
    grind
  mem_meshes i := by
    constructor
    · -- A mesh is only listed with a polygon.
      intro hi
      obtain ⟨⟨_, places⟩, hmem, rfl⟩ := List.mem_map.mp hi
      obtain ⟨s, mesh, hs, hmesh, hplaces⟩ := mem_polygons_of hmem
      obtain ⟨-, -, -, -, hne⟩ := mem_meshes_of_iff.mp hmem
      obtain ⟨k, hk⟩ := List.exists_mem_of_ne_nil places hne
      obtain ⟨p, hp, hreaches⟩ := (hplaces k).mp hk
      exact ⟨s, mesh, hs, hmesh, p, Array.mem_of_getElem? hp, hreaches⟩
    · rintro ⟨s, mesh, hs, hmesh, p, hp, hreaches⟩
      obtain ⟨k, hk⟩ := Array.mem_iff_getElem?.mp hp
      have hplace : k ∈ polygonsAt c (mesh.polygons.toList.map fun p => g.tileRange? p.bounds) :=
        mem_polygonsAt_iff.mpr ⟨_, by simp [hk], hreaches⟩
      refine List.mem_map.mpr ⟨(i, _), mem_meshes_of_iff.mpr
        ⟨SolidReach.of g s i, mem_reachOf_iff.mpr ⟨i, s, by simpa using hs, rfl⟩, rfl, ?_,
          List.ne_nil_of_mem hplace⟩, rfl⟩
      simp [SolidReach.of, hmesh]
  polygons_ascend i places hmem := by
    obtain ⟨r, hr, -, hplaces, -⟩ := mem_meshes_of_iff.mp hmem
    obtain ⟨ranges, -, rfl⟩ := Option.map_eq_some_iff.mp hplaces
    exact pairwise_polygonsAt c ranges
  mem_polygons _ _ hmem := mem_polygons_of hmem
  destructibles_ascend := by
    refine List.pairwise_map.mpr ?_
    refine (pairwise_reachOf g solids.toList).filterMap _ fun r s hlt i hi j hj => ?_
    grind
  mem_destructibles i b := by
    simp [of, List.mem_filterMap, mem_reachOf_iff, SolidReach.of, and_assoc]
  solids_ascend := pairwise_solids _
  mem_solids _ := mem_solids_iff

end TileBin

/-- The bins of a grid hold exactly what can reach their tiles, and nothing is registered outside
of a grid with tiles. -/
theorem binSolids_registers (solids : Array Solid) (g : Grid) :
    (binSolids solids g).size = g.tileCount ∧
      (∀ c, g.contains c = true →
        ∃ bin, (binSolids solids g)[g.tileIndex c]? = some bin ∧ bin.Registered solids g c) ∧
      ∀ b r, g.tileRange? b = some r → ∀ c ∈ r.cells, 0 < g.tileCount → g.contains c = true :=
  ⟨size_binSolids solids g,
    fun c hc => ⟨_, getElem?_binSolids hc, TileBin.registered_of solids g c⟩,
    fun _ _ hrange _ hc htiles => Grid.contains_of_mem_cells hrange htiles hc⟩

end Battlemap
