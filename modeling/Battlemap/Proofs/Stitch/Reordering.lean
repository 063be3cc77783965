import Battlemap.Proofs.Number.SignedZero
import Battlemap.Proofs.Stitch.Rebasing

/-!
# `Battlemap.Proofs.Stitch.Reordering`: the order of the parcels does not matter

Parcels that are put together in another order fill the arrays of the map in another order,
and every reference changes. What is at a tile does not: `Board.contentsAt` reads the levels
of a cell with their data through the references, and leaves the references out. The
contents of a cell are those of the parcel that lands there (`Joined.contentsAt_of_landsOn`),
and there is none for the others.

Which cells land where depends on the grid. Two orders may have destinations that differ in
the signs of zeros, as a minimum of two zeros is the second of them. `Grid.SameFrame` allows
for that, and `LandsOn.of_sameFrame` says that it does not move anything. Whether two parcels
meet then depends on the pair alone (`not_overlapping_iff`), not on who comes first.
-/

set_option autoImplicit false

namespace Battlemap

open Parcel Single

/-! ### Grids in one place -/

/-- The two grids have as many tiles of one size from one corner. -/
structure Grid.SameFrame (g g' : Grid) : Prop where
  width : g.width = g'.width
  height : g.height = g'.height
  tileSize : g.tileSize.Alike g'.tileSize
  originX : g.origin.x.Alike g'.origin.x
  originZ : g.origin.z.Alike g'.origin.z

/-- Being alike goes both ways. -/
theorem Single.Alike.symm {a b : Single} (h : a.Alike b) : b.Alike a := by
  rcases h with rfl | h
  · exact .inl rfl
  · simp only [sameNumber, Bool.and_eq_true, beq_iff_eq] at h
    exact .inr (by simp [sameNumber, h])

namespace Grid.SameFrame

variable {g g' : Grid}

/-- Having the same frame goes both ways. -/
theorem symm (h : g.SameFrame g') : g'.SameFrame g :=
  ⟨h.width.symm, h.height.symm, h.tileSize.symm, h.originX.symm, h.originZ.symm⟩

/-- Grids with the same frame have the same cells. -/
theorem contains_eq (h : g.SameFrame g') (d : Cell) : g'.contains d = g.contains d := by
  rw [Bool.eq_iff_iff, Grid.contains_iff, Grid.contains_iff, h.width, h.height]

end Grid.SameFrame

namespace Parcel

/-- From an end of the range of offsets no cell is reached. -/
theorem not_atEnd_of_eq_add {offset : Int} {d turned : UInt32}
    (h : (d.toNat : Int) = offset + turned.toNat) : ¬ AtEnd offset := by
  have hd := d.toNat_lt
  have ht := turned.toNat_lt
  have hmin : Int64.minValue.toInt = -9223372036854775808 := rfl
  have hmax : Int64.maxValue.toInt = 9223372036854775807 := rfl
  rintro (hend | hend) <;> omega

/-- Cells land where they do on every grid with the same frame. -/
theorem LandsOn.of_sameFrame {p : Parcel} {g g' : Grid} (hframe : g.SameFrame g') {c d : Cell}
    (h : p.LandsOn g c d) : p.LandsOn g' c d where
  occupied := h.occupied
  x := by
    rcases toInt_round_quotient p.position.x hframe.originX hframe.tileSize with
      hsame | ⟨hend, -⟩
    · exact h.x.trans (congrArg (· + _) hsame)
    · exact absurd hend (not_atEnd_of_eq_add h.x)
  z := by
    rcases toInt_round_quotient p.position.z hframe.originZ hframe.tileSize with
      hsame | ⟨hend, -⟩
    · exact h.z.trans (congrArg (· + _) hsame)
    · exact absurd hend (not_atEnd_of_eq_add h.z)

/-! ### Parcels that keep clear of each other -/

/-- No cell of one parcel lands on a tile of the grid on which a cell of the other does. -/
def Clear (g : Grid) (p q : Parcel) : Prop :=
  ∀ c e d : Cell, g.contains d = true → p.LandsOn g c d → ¬ q.LandsOn g e d

/-- Being clear of each other goes both ways. -/
theorem Clear.symm {g : Grid} {p q : Parcel} (h : Clear g p q) : Clear g q p :=
  fun c e d hd hq hp => h e c d hd hp hq

/-- Whether parcels are clear of each other is a matter of the frame. -/
theorem Clear.of_sameFrame {g g' : Grid} {p q : Parcel} (hframe : g.SameFrame g')
    (h : Clear g p q) : Clear g' p q := by
  intro c e d hd hp hq
  rw [hframe.contains_eq] at hd
  exact h c e d hd (hp.of_sameFrame hframe.symm) (hq.of_sameFrame hframe.symm)

/-- Parcels do not overlap if any two of them are clear of each other. -/
theorem not_overlapping_iff {g : Grid} {parcels : List Parcel} :
    ¬ Overlapping g parcels ↔ parcels.Pairwise (Clear g) := by
  rw [List.pairwise_iff_getElem]
  constructor
  · intro hnone i j hi hj hij c e d hd hp hq
    exact hnone ⟨i, j, _, _, c, e, d, hij.ne, List.getElem?_eq_getElem hi,
      List.getElem?_eq_getElem hj, hd, hp, hq⟩
  · rintro hclear ⟨i, j, p, q, c, e, d, hne, hp, hq, hd, hlands, hlands'⟩
    obtain ⟨hi, rfl⟩ := List.getElem?_eq_some_iff.mp hp
    obtain ⟨hj, rfl⟩ := List.getElem?_eq_some_iff.mp hq
    rcases Nat.lt_or_gt_of_ne hne with hlt | hlt
    · exact hclear i j hi hj hlt c e d hd hlands hlands'
    · exact hclear j i hj hi hlt e c d hd hlands' hlands

/-- Whether parcels overlap depends neither on their order nor on the signs of zeros. -/
theorem not_overlapping_of_perm {g g' : Grid} {parcels parcels' : List Parcel}
    (hframe : g.SameFrame g') (hperm : parcels.Perm parcels') (h : ¬ Overlapping g parcels) :
    ¬ Overlapping g' parcels' := by
  rw [not_overlapping_iff] at h ⊢
  exact ((hperm.pairwise_iff fun h => h.symm).mp h).imp (·.of_sameFrame hframe)

end Parcel

/-- On a grid for all parcels, they are put together exactly if no two of them meet. -/
theorem stitch_isOk_iff {parcels : List Parcel} {g : Grid}
    (hg : Parcel.destination parcels = .ok g) (hparcels : ∀ p ∈ parcels, p.board.Consistent)
    (hlevels : (parcels.map levelTotal).sum < UInt32.size)
    (hdata : (parcels.map dataTotal).sum < UInt32.size) :
    (∃ b, stitch parcels = .ok b) ↔ ¬ Overlapping g parcels := by
  rcases stitch_outcome hg hparcels hlevels hdata with ⟨b, hb, hnone⟩ | ⟨k, p, c, d, herror, hfirst⟩
  · exact iff_of_true ⟨b, hb⟩ hnone
  · exact iff_of_false (by simp [herror]) fun hnone => hnone hfirst.meets.overlapping

/-- The longest payload is the same in every order. -/
theorem longestPayload_perm {parcels parcels' : List Parcel} (hperm : parcels.Perm parcels')
    (hne : parcels ≠ []) : longestPayload parcels = longestPayload parcels' := by
  have hne' : parcels' ≠ [] := fun hnil => hne (List.perm_nil.mp (hnil ▸ hperm))
  obtain ⟨⟨p, hp, hsize⟩, hle⟩ := longestPayload_isGreatest hne
  obtain ⟨⟨p', hp', hsize'⟩, hle'⟩ := longestPayload_isGreatest hne'
  exact UInt32.le_antisymm (hle' ⟨p, hperm.mem_iff.mp hp, hsize⟩)
    (hle ⟨p', hperm.mem_iff.mpr hp', hsize'⟩)

/-! ### What is at a cell -/

namespace Board

/-- The levels of a cell from the bottom up, each with its data instead of the place where
that is kept. -/
def contentsAt (b : Board) (c : Cell) : List (Level × Option LevelData) :=
  (b.levelsAt c).map fun level => ({ level with dataIndex := 0 }, b.data[level.dataIndex.toNat]?)

variable {b : Board} {c : Cell} {tile : Tile}

/-- The levels of a cell are the run of its tile. -/
theorem levelsAt_of_tile? (hb : b.Consistent) (htile : b.tile? c = some tile) :
    b.levelsAt c = (b.levels.extract tile.first (tile.first + tile.count)).toList := by
  rw [levelsAt, levelsAt?, htile]
  dsimp only
  rw [if_pos (hb.run_le tile (mem_tiles_of_tile? htile)), Option.getD_some]

/-- The contents at a position are its level, without the place of the data, and the data. -/
theorem getElem?_contentsAt (hb : b.Consistent) (htile : b.tile? c = some tile) (x : Nat) :
    (b.contentsAt c)[x]? = if x < tile.count then b.levels[tile.first + x]?.map fun level =>
      ({ level with dataIndex := 0 }, b.data[level.dataIndex.toNat]?) else none := by
  have hrun := hb.run_le tile (mem_tiles_of_tile? htile)
  rw [contentsAt, levelsAt_of_tile? hb htile, List.getElem?_map, Array.getElem?_toList,
    Array.getElem?_extract]
  by_cases hx : x < tile.count
  · rw [if_pos hx, if_pos (by omega)]
  · rw [if_neg hx, if_neg (by omega), Option.map_none]

/-- Every level of a consistent board has data. -/
theorem Consistent.isSome_of_mem_contentsAt (hb : b.Consistent) {entry : Level × Option LevelData}
    (h : entry ∈ b.contentsAt c) : entry.2.isSome = true := by
  obtain ⟨x, hx⟩ := List.mem_iff_getElem?.mp h
  cases htile : b.tile? c with
  | none => simp [contentsAt, levelsAt, levelsAt?, htile] at hx
  | some tile =>
    rw [getElem?_contentsAt hb htile, Option.ite_none_right_eq_some] at hx
    obtain ⟨hlt, hx⟩ := hx
    obtain ⟨level, hl, rfl⟩ := Option.map_eq_some_iff.mp hx
    obtain ⟨d, hd, -⟩ := hb.hasData tile (mem_tiles_of_tile? htile) x hlt level hl
    simp [hd]

end Board

open Board

/-- What a cell of the parcel brings along: its contents, turned, raised and marked. -/
def Parcel.contentsFor (p : Parcel) (payloadSize : UInt32) (c : Cell) :
    List (Level × Option LevelData) :=
  (p.board.contentsAt c).map fun (level, data?) =>
    (level.placed p.rotation p.position.y 0,
      data?.map fun data => data.placed p.id payloadSize.toNat)

namespace Joined

variable {parcels : List Parcel} {b : Board} {i : Nat} {p : Parcel} {c d : Cell}

/-- The contents of a cell are those of the cell that lands there. -/
theorem contentsAt_of_landsOn (h : Joined parcels b) (hp : parcels[i]? = some p)
    (hlands : p.LandsOn b.grid c d) (hd : b.grid.contains d = true) :
    b.contentsAt d = p.contentsFor b.payloadSize c := by
  have hpc := h.parcel p (List.mem_of_getElem? hp)
  obtain ⟨source, target, hsource, htarget, hstored⟩ := h.filled.stored trivial hp hd hlands
  have hcount : target.count = source.count := congrArg UInt32.toNat hstored.levelCount
  refine List.ext_getElem? fun x => ?_
  rw [getElem?_contentsAt h.consistent htarget, contentsFor, List.getElem?_map,
    getElem?_contentsAt hpc hsource, hcount]
  by_cases hx : x < source.count
  · obtain ⟨l, data, index, hl, hdata, hlevel, hcopied⟩ := hstored.level x hx
    rw [if_pos hx, if_pos hx, hl, hlevel]
    simp only [Option.map_some, hcopied, hdata, Level.placed_eq]
    rfl
  · rw [if_neg hx, if_neg hx, Option.map_none]

/-- A cell where none lands has no contents. -/
theorem contentsAt_eq_nil (h : Joined parcels b)
    (hnone : ∀ (i : Nat) (p : Parcel) (c : Cell), parcels[i]? = some p → p.LandsOn b.grid c d →
      b.grid.contains d = false) : b.contentsAt d = [] := by
  cases htile : b.tile? d with
  | none => simp [contentsAt, levelsAt, levelsAt?, htile]
  | some tile =>
    have hempty : tile.levelCount = 0 := by
      by_contra hne
      obtain ⟨i, p, c, -, hp, hlands⟩ := h.filled.origin htile hne
      exact Bool.false_ne_true
        ((hnone i p c hp hlands).symm.trans (contains_of_tile? htile))
    have hcount : tile.count = 0 := congrArg UInt32.toNat hempty
    rw [contentsAt, levelsAt_of_tile? h.consistent htile, hcount, Nat.add_zero]
    simp

/-- Maps of the same parcels with the same frame have the same contents. -/
theorem contentsAt_eq {parcels' : List Parcel} {b' : Board} (h : Joined parcels b)
    (h' : Joined parcels' b') (hperm : parcels.Perm parcels') (hframe : b.grid.SameFrame b'.grid)
    (hpayload : b.payloadSize = b'.payloadSize) (d : Cell) :
    b.contentsAt d = b'.contentsAt d := by
  by_cases hsome : ∃ (i : Nat) (p : Parcel) (c : Cell), parcels[i]? = some p ∧
      p.LandsOn b.grid c d ∧ b.grid.contains d = true
  · obtain ⟨i, p, c, hp, hlands, hd⟩ := hsome
    obtain ⟨j, hp'⟩ := List.mem_iff_getElem?.mp (hperm.mem_iff.mp (List.mem_of_getElem? hp))
    rw [h.contentsAt_of_landsOn hp hlands hd, hpayload,
      h'.contentsAt_of_landsOn hp' (hlands.of_sameFrame hframe) (hframe.contains_eq d ▸ hd)]
  · rw [h.contentsAt_eq_nil, h'.contentsAt_eq_nil]
    · intro j p c hp hlands
      obtain ⟨i, hp'⟩ := List.mem_iff_getElem?.mp (hperm.mem_iff.mpr (List.mem_of_getElem? hp))
      by_contra hd
      rw [Bool.not_eq_false, hframe.contains_eq] at hd
      exact hsome ⟨i, p, c, hp', hlands.of_sameFrame hframe.symm, hd⟩
    · intro i p c hp hlands
      by_contra hd
      exact hsome ⟨i, p, c, hp, hlands, Bool.not_eq_false _ ▸ hd⟩

end Joined

/-- Take parcels in two orders in which their destinations have the same size, tiles and
origin, up to the signs of zeros. They are put together in one order exactly if they are in
the other, and then every cell of the two maps has the same levels with the same data. -/
theorem stitch_perm {parcels parcels' : List Parcel} (hperm : parcels.Perm parcels')
    (hparts : ∀ p ∈ parcels, Board.ofParts p.board.grid p.board.payloadSize p.board.tiles
      p.board.levels p.board.data = .ok p.board)
    (hlevels : (parcels.map fun p => p.board.levels.size).sum < UInt32.size)
    (hdata : (parcels.map fun p => p.board.data.size).sum < UInt32.size) {g g' : Grid}
    (hg : Parcel.destination parcels = .ok g) (hg' : Parcel.destination parcels' = .ok g')
    (hframe : g.SameFrame g') :
    ((∃ b, stitch parcels = .ok b) ↔ ∃ b', stitch parcels' = .ok b') ∧
      ∀ b b', stitch parcels = .ok b → stitch parcels' = .ok b' → ∀ d : Cell,
        b.contentsAt d = b'.contentsAt d ∧ ∀ entry ∈ b.contentsAt d, entry.2.isSome = true := by
  have hlevels' : (parcels'.map levelTotal).sum < UInt32.size :=
    (hperm.map levelTotal).sum_eq ▸ hlevels
  have hdata' : (parcels'.map dataTotal).sum < UInt32.size :=
    (hperm.map dataTotal).sum_eq ▸ hdata
  have hconsistent : ∀ p ∈ parcels, p.board.Consistent :=
    fun p hp => (Board.ofParts_eq_ok_iff.mp (hparts p hp)).2
  have hconsistent' : ∀ p ∈ parcels', p.board.Consistent :=
    fun p hp => hconsistent p (hperm.mem_iff.mpr hp)
  constructor
  · -- On either destination there is a map exactly if no two parcels meet.
    rw [stitch_isOk_iff hg hconsistent hlevels hdata,
      stitch_isOk_iff hg' hconsistent' hlevels' hdata']
    exact ⟨not_overlapping_of_perm hframe hperm, not_overlapping_of_perm hframe.symm hperm.symm⟩
  · intro b b' hb hb' d
    have hjoined := Joined.of_stitch hb hlevels hdata
    have hjoined' := Joined.of_stitch hb' hlevels' hdata'
    obtain rfl : b.grid = g := Except.ok.inj ((destination_of_stitch hb).symm.trans hg)
    obtain rfl : b'.grid = g' := Except.ok.inj ((destination_of_stitch hb').symm.trans hg')
    have hne : parcels ≠ [] := by
      rintro rfl
      cases hb
    have hpayload : b.payloadSize = b'.payloadSize := by
      rw [(Filled.of_stitch hb hlevels hdata).2, (Filled.of_stitch hb' hlevels' hdata').2]
      exact longestPayload_perm hperm hne
    exact ⟨hjoined.contentsAt_eq hjoined' hperm hframe hpayload d,
      fun _ => hjoined.consistent.isSome_of_mem_contentsAt⟩

/-- Two parcels with corners at zeros of both signs. -/
def cornerPair : List Parcel :=
  [⟨Board.threeFloors, .zero, .none, 5⟩, ⟨tileRow, ⟨-.zero, .one, .one⟩, .half, 9⟩]

/-- What the two are stitched to. -/
def cornerPairMap : Board := (stitch cornerPair).toOption.getD default

/-- What they are stitched to in the other order. -/
def cornerPairMapReversed : Board := (stitch cornerPair.reverse).toOption.getD default

/-- In the other order the origin is the other zero and the runs start elsewhere, but the
contents are the same. -/
theorem cornerPair_perm :
    Parcel.destination cornerPair ≠ Parcel.destination cornerPair.reverse ∧
      stitch cornerPair = .ok cornerPairMap ∧
      stitch cornerPair.reverse = .ok cornerPairMapReversed ∧
      cornerPairMap.tiles ≠ cornerPairMapReversed.tiles ∧
      ∀ d : Cell, cornerPairMap.contentsAt d = cornerPairMapReversed.contentsAt d := by
  have hb : stitch cornerPair = .ok cornerPairMap := by decide +kernel
  have hb' : stitch cornerPair.reverse = .ok cornerPairMapReversed := by decide +kernel
  obtain ⟨-, hsame⟩ := stitch_perm (List.reverse_perm cornerPair).symm (by decide +kernel)
    (by decide +kernel) (by decide +kernel) (destination_of_stitch hb)
    (destination_of_stitch hb') ⟨by decide +kernel, by decide +kernel, .inl (by decide +kernel),
      .inr (by decide +kernel), .inl (by decide +kernel)⟩
  exact ⟨by decide +kernel, hb, hb', by decide +kernel, fun d => (hsame _ _ hb hb' d).1⟩

end Battlemap
