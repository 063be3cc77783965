import Battlemap.Proofs.Stitch.Coverage

/-!
# `Battlemap.Proofs.Stitch.Rebasing`: the arrays of a map that was put together

Stitching lays the level records of the parcels one behind the other, and their data too.
A reference into either array is moved by the number of records of the parcels before
(`Parcel.recordsBefore`). `Rebased` writes both arrays out, and says that every tile with
levels is a tile of one of the parcels with its run moved in this way; copying one more
parcel keeps it (`Rebased.copyInto`).

The parcels own stretches of either array that do not meet (`Parcel.recordsBefore_inj`),
and each record stands where it did in the stretch of its parcel (`Rebased.level`,
`Rebased.entry`). `Joined` adds what the number of records is needed for: with fewer than
`2 ^ 32` in all, a reference of a parcel to a record of its own is moved without overflow.
-/

set_option autoImplicit false

namespace Battlemap

namespace Parcel

/-! ### Stretches of records -/

/-- How many level records the parcel brings along. -/
def levelTotal (p : Parcel) : Nat := p.board.levels.size

/-- How many data entries the parcel brings along. -/
def dataTotal (p : Parcel) : Nat := p.board.data.size

/-- How many records the parcels before the one with the number `i` bring along. -/
def recordsBefore (total : Parcel → Nat) (parcels : List Parcel) (i : Nat) : Nat :=
  ((parcels.take i).map total).sum

section Stretches

variable {total : Parcel → Nat} {parcels : List Parcel} {i j : Nat} {p q : Parcel}

/-- Further parcels do not change what is before one. -/
theorem recordsBefore_append (h : i ≤ parcels.length) (more : List Parcel) :
    recordsBefore total (parcels ++ more) i = recordsBefore total parcels i := by
  rw [recordsBefore, List.take_append_of_le_length h, recordsBefore]

/-- Before the end are the records of all parcels. -/
theorem recordsBefore_length (total : Parcel → Nat) (parcels : List Parcel) :
    recordsBefore total parcels parcels.length = (parcels.map total).sum := by
  rw [recordsBefore, List.take_length]

/-- Behind a parcel are its own records in addition. -/
theorem recordsBefore_succ (h : parcels[i]? = some p) :
    recordsBefore total parcels (i + 1) = recordsBefore total parcels i + total p := by
  rw [recordsBefore, List.take_add_one, h, List.map_append, List.sum_append, recordsBefore]
  simp

/-- Later parcels have no fewer records before them. -/
theorem recordsBefore_mono (h : i ≤ j) :
    recordsBefore total parcels i ≤ recordsBefore total parcels j := by
  obtain ⟨n, rfl⟩ := Nat.exists_eq_add_of_le h
  rw [recordsBefore, recordsBefore, List.take_add, List.map_append, List.sum_append]
  exact Nat.le_add_right _ _

/-- The stretch of a parcel ends before that of a later one starts. -/
theorem recordsBefore_add_le (total : Parcel → Nat) (h : parcels[i]? = some p) (hij : i < j) :
    recordsBefore total parcels i + total p ≤ recordsBefore total parcels j := by
  rw [← recordsBefore_succ h]
  exact recordsBefore_mono hij

/-- The stretch of a parcel ends with all records at the latest. -/
theorem recordsBefore_add_le_sum (h : parcels[i]? = some p) :
    recordsBefore total parcels i + total p ≤ (parcels.map total).sum := by
  rw [← recordsBefore_length]
  exact recordsBefore_add_le total h (List.getElem?_eq_some_iff.mp h).1

/-- Each place belongs to one record of one parcel. -/
theorem recordsBefore_inj (hp : parcels[i]? = some p) (hq : parcels[j]? = some q) {m n : Nat}
    (hm : m < total p) (hn : n < total q)
    (h : recordsBefore total parcels i + m = recordsBefore total parcels j + n) :
    i = j ∧ m = n := by
  rcases Nat.lt_trichotomy i j with hlt | rfl | hlt
  · have hle := recordsBefore_add_le total hp hlt
    omega
  · exact ⟨rfl, Nat.add_left_cancel h⟩
  · have hle := recordsBefore_add_le total hq hlt
    omega

end Stretches

/-! ### What a parcel brings along -/

/-- The level records of the parcel, with their data at an offset. -/
def levelsFrom (p : Parcel) (dataOffset : Nat) : List Level :=
  p.board.levels.toList.map fun l => l.placed p.rotation p.position.y dataOffset.toUInt32

/-- The data of the parcel, with payloads of a length. -/
def dataFor (payloadSize : UInt32) (p : Parcel) : List LevelData :=
  p.board.data.toList.map fun d => d.placed p.id payloadSize.toNat

/-- The parcels, each with the offset of its data. -/
def withDataOffsets (offset : Nat) : List Parcel → List (Parcel × Nat)
  | [] => []
  | p :: rest => (p, offset) :: withDataOffsets (offset + p.dataTotal) rest

/-- Offsets go on behind the data of the parcels before. -/
theorem withDataOffsets_append (offset : Nat) (parcels more : List Parcel) :
    withDataOffsets offset (parcels ++ more) = withDataOffsets offset parcels
      ++ withDataOffsets (offset + (parcels.map dataTotal).sum) more := by
  induction parcels generalizing offset with
  | nil => rfl
  | cons p rest ih =>
    rw [List.cons_append, withDataOffsets, ih, List.map_cons, List.sum_cons, ← Nat.add_assoc]
    rfl

/-- Offsets do not change which parcels there are. -/
theorem map_fst_withDataOffsets (offset : Nat) (parcels : List Parcel) :
    (withDataOffsets offset parcels).map Prod.fst = parcels := by
  induction parcels generalizing offset with
  | nil => rfl
  | cons p rest ih => rw [withDataOffsets, List.map_cons, ih]

/-- The offset of a parcel is the data before it. -/
theorem getElem?_withDataOffsets (offset : Nat) (parcels : List Parcel) (i : Nat) :
    (withDataOffsets offset parcels)[i]?
      = parcels[i]?.map fun p => (p, offset + recordsBefore dataTotal parcels i) := by
  induction parcels generalizing offset i with
  | nil => rfl
  | cons p rest ih =>
    cases i with
    | zero => rfl
    | succ i =>
      rw [withDataOffsets, List.getElem?_cons_succ, ih, List.getElem?_cons_succ]
      simp [recordsBefore, Nat.add_assoc]

/-- A parcel is listed with the data before one of the places where it stands. -/
theorem mem_withDataOffsets_iff {parcels : List Parcel} {p : Parcel} {dataOffset : Nat} :
    (p, dataOffset) ∈ withDataOffsets 0 parcels ↔
      ∃ i : Nat, parcels[i]? = some p ∧ recordsBefore dataTotal parcels i = dataOffset := by
  simp [List.mem_iff_getElem?, getElem?_withDataOffsets]

/-- What all parcels bring along, read at a place of one of them. -/
theorem getElem?_flatMap {α : Type} {items : List α} {i m : Nat} {a : α} {β : Type}
    {f : α → List β} (ha : items[i]? = some a) (hm : m < (f a).length) :
    (items.flatMap f)[((items.take i).map fun a => (f a).length).sum + m]? = (f a)[m]? := by
  induction items generalizing i with
  | nil => cases ha
  | cons b rest ih =>
    cases i with
    | zero =>
      cases ha
      rw [List.flatMap_cons, List.take_zero, List.map_nil, List.sum_nil, Nat.zero_add,
        List.getElem?_append_left hm]
    | succ i =>
      rw [List.flatMap_cons, List.take_succ_cons, List.map_cons, List.sum_cons, Nat.add_assoc,
        List.getElem?_append_right (Nat.le_add_right _ _), Nat.add_sub_cancel_left]
      exact ih ha

end Parcel

open Parcel

/-! ### The arrays and the runs -/

/-- The board has the records of the parcels one behind the other, with the references moved
accordingly, and its tiles with levels are tiles of the parcels. -/
structure Rebased (parcels : List Parcel) (b : Board) : Prop where
  tileCount : b.tiles.size = b.grid.tileCount
  levels : b.levels.toList
    = (withDataOffsets 0 parcels).flatMap fun (p, dataOffset) => p.levelsFrom dataOffset
  data : b.data.toList = parcels.flatMap (dataFor b.payloadSize)
  tile : ∀ {d : Cell} {target : Tile}, b.tile? d = some target → target.levelCount ≠ 0 →
    ∃ (i : Nat) (p : Parcel) (c : Cell) (source : Tile), parcels[i]? = some p ∧
      p.LandsOn b.grid c d ∧ p.board.tile? c = some source ∧
      target = ⟨source.levelCount,
        source.levelStart + (recordsBefore levelTotal parcels i).toUInt32⟩

namespace Rebased

variable {parcels : List Parcel} {b : Board}

/-- The board has the levels of all parcels. -/
theorem size_levels (h : Rebased parcels b) : b.levels.size = (parcels.map levelTotal).sum := by
  rw [← Array.length_toList, h.levels, List.length_flatMap]
  conv_rhs => rw [← map_fst_withDataOffsets 0 parcels, List.map_map]
  congr 1
  refine List.map_congr_left fun ⟨p, dataOffset⟩ _ => ?_
  simp [levelsFrom, levelTotal]

/-- The board has the data of all parcels. -/
theorem size_data (h : Rebased parcels b) : b.data.size = (parcels.map dataTotal).sum := by
  rw [← Array.length_toList, h.data, List.length_flatMap]
  congr 1
  refine List.map_congr_left fun p _ => ?_
  simp [dataFor, dataTotal]

/-- Without a parcel there are no records. -/
theorem blank (g : Grid) (payloadSize : UInt32) :
    Rebased [] ⟨g, payloadSize, Array.replicate g.tileCount ⟨0, 0⟩, #[], #[]⟩ where
  tileCount := Array.size_replicate
  levels := rfl
  data := rfl
  tile htarget hlevels := by
    have hmem := Array.mem_replicate.mp (Board.mem_tiles_of_tile? htarget)
    exact absurd (hmem.2 ▸ rfl) hlevels

/-- The records of one more parcel go behind the others. -/
theorem withRecords (h : Rebased parcels b) (p : Parcel) :
    Rebased (parcels ++ [p]) (b.withRecords p) where
  tileCount := h.tileCount
  levels := by
    rw [withDataOffsets_append, List.flatMap_append, ← h.levels, Nat.zero_add, ← h.size_data]
    simp [Board.withRecords, withDataOffsets, levelsFrom]
  data := by
    rw [List.flatMap_append]
    show _ = parcels.flatMap (dataFor b.payloadSize) ++ _
    rw [← h.data]
    simp [Board.withRecords, dataFor]
  tile htarget hlevels := by
    obtain ⟨i, q, c, source, hq, hlands, hsource, rfl⟩ := h.tile htarget hlevels
    have hi := (List.getElem?_eq_some_iff.mp hq).1
    refine ⟨i, q, c, source, ?_, hlands, hsource, ?_⟩
    · rw [List.getElem?_append_left hi]
      exact hq
    · rw [recordsBefore_append hi.le]

/-- Putting down a tile of a parcel moves its run by the records before. -/
theorem placeTile (h : Rebased parcels b) {i : Nat} {p : Parcel} (hp : parcels[i]? = some p)
    {b' : Board} {c : Cell}
    (hplace : p.placeTile (recordsBefore levelTotal parcels i).toUInt32 b c = .ok b') :
    Rebased parcels b' := by
  rcases placeTile_cases hplace with ⟨rfl, -⟩ | ⟨source, d, hsource, -, hd, hlands, -, rfl⟩
  · exact h
  · refine ⟨?_, h.levels, h.data, fun {e target} htarget hlevels => ?_⟩
    · rw [Board.withTile, Array.size_setIfInBounds]
      exact h.tileCount
    · rw [Board.tile?_withTile h.tileCount hd] at htarget
      split at htarget
      case isTrue heq =>
        cases htarget
        exact ⟨i, p, c, source, hp, heq ▸ hlands, hsource, rfl⟩
      case isFalse => exact h.tile htarget hlevels

/-- Putting down cells of a parcel keeps its tiles within its own stretch. -/
theorem foldlM_placeTile (h : Rebased parcels b) {i : Nat} {p : Parcel}
    (hp : parcels[i]? = some p) {cells : List Cell} {b' : Board}
    (hfold : cells.foldlM (p.placeTile (recordsBefore levelTotal parcels i).toUInt32) b
      = .ok b') : Rebased parcels b' := by
  induction cells generalizing b with
  | nil =>
    cases hfold
    exact h
  | cons c cells ih =>
    rw [List.foldlM_cons, except_bind_eq_ok_iff] at hfold
    obtain ⟨mid, hmid, hrest⟩ := hfold
    exact ih (h.placeTile hp hmid) hrest

/-- Copying one more parcel. -/
theorem copyInto (h : Rebased parcels b) {p : Parcel} {b' : Board}
    (hcopy : Parcel.copyInto b p = .ok b') : Rebased (parcels ++ [p]) b' := by
  obtain ⟨-, hfold⟩ := copyInto_eq_ok_iff.mp hcopy
  have hp : (parcels ++ [p])[parcels.length]? = some p := by simp
  rw [h.size_levels, ← recordsBefore_length, ← recordsBefore_append le_rfl [p]] at hfold
  exact (h.withRecords p).foldlM_placeTile hp hfold

/-- Copying parcels adds their stretches one behind the other. -/
theorem foldlM_copyInto (h : Rebased parcels b) {rest : List Parcel} {b' : Board}
    (hfold : rest.foldlM Parcel.copyInto b = .ok b') : Rebased (parcels ++ rest) b' := by
  induction rest generalizing parcels b with
  | nil =>
    cases hfold
    rw [List.append_nil]
    exact h
  | cons p rest ih =>
    rw [List.foldlM_cons, except_bind_eq_ok_iff] at hfold
    obtain ⟨mid, hmid, hrest⟩ := hfold
    rw [List.append_cons]
    exact ih (h.copyInto hmid) hrest

/-- What stitching makes has the records of all parcels. -/
theorem of_stitch (h : stitch parcels = .ok b) : Rebased parcels b := by
  obtain ⟨g, -, hcopied, -⟩ := exists_of_stitch h
  exact (blank g (longestPayload parcels)).foldlM_copyInto hcopied

/-! ### Looking up records -/

variable {i m : Nat} {p : Parcel}

/-- A level record of a parcel stands as far behind the records before as in the parcel. -/
theorem level (h : Rebased parcels b) (hp : parcels[i]? = some p) {l : Level}
    (hl : p.board.levels[m]? = some l) :
    b.levels[recordsBefore levelTotal parcels i + m]? = some
      (l.placed p.rotation p.position.y (recordsBefore dataTotal parcels i).toUInt32) := by
  have hm := (Array.getElem?_eq_some_iff.mp hl).1
  have hoffset : (withDataOffsets 0 parcels)[i]?
      = some (p, recordsBefore dataTotal parcels i) := by
    rw [getElem?_withDataOffsets, hp, Option.map_some, Nat.zero_add]
  have hbefore : recordsBefore levelTotal parcels i
      = (((withDataOffsets 0 parcels).take i).map fun q => (q.1.levelsFrom q.2).length).sum := by
    rw [recordsBefore]
    conv_lhs => rw [← map_fst_withDataOffsets 0 parcels, ← List.map_take, List.map_map]
    congr 1
    refine List.map_congr_left fun q _ => ?_
    simp [levelsFrom, levelTotal]
  rw [← Array.getElem?_toList, h.levels, hbefore]
  show ((withDataOffsets 0 parcels).flatMap fun q => q.1.levelsFrom q.2)[_]? = _
  rw [getElem?_flatMap hoffset (by simpa [levelsFrom] using hm)]
  simp [levelsFrom, hl]

/-- An entry of a parcel's data stands as far behind the data before as in the parcel. -/
theorem entry (h : Rebased parcels b) (hp : parcels[i]? = some p) {d : LevelData}
    (hd : p.board.data[m]? = some d) :
    b.data[recordsBefore dataTotal parcels i + m]?
      = some (d.placed p.id b.payloadSize.toNat) := by
  have hm := (Array.getElem?_eq_some_iff.mp hd).1
  have hbefore : recordsBefore dataTotal parcels i
      = ((parcels.take i).map fun q => (dataFor b.payloadSize q).length).sum := by
    rw [recordsBefore]
    congr 1
    refine List.map_congr_left fun q _ => ?_
    simp [dataFor, dataTotal]
  rw [← Array.getElem?_toList, h.data, hbefore,
    getElem?_flatMap hp (by simpa [dataFor] using hm)]
  simp [dataFor, hd]

end Rebased

/-! ### Maps from fewer than `2 ^ 32` records -/

/-- What there is to know of a map that was put together from fewer level records and data
entries than 32 bits can count. -/
structure Joined (parcels : List Parcel) (b : Board) : Prop where
  consistent : b.Consistent
  parcel : ∀ p ∈ parcels, p.board.Consistent
  filled : Filled parcels (fun _ _ => True) b
  rebased : Rebased parcels b
  levels : (parcels.map levelTotal).sum < UInt32.size
  data : (parcels.map dataTotal).sum < UInt32.size

/-- Parcels that were copied are consistent, since each of them was checked. -/
theorem consistent_of_foldlM_copyInto {parcels : List Parcel} {b b' : Board}
    (h : parcels.foldlM Parcel.copyInto b = .ok b') : ∀ p ∈ parcels, p.board.Consistent := by
  induction parcels generalizing b with
  | nil => simp
  | cons p rest ih =>
    rw [List.foldlM_cons, except_bind_eq_ok_iff] at h
    obtain ⟨mid, hmid, hrest⟩ := h
    exact List.forall_mem_cons.mpr ⟨(copyInto_eq_ok_iff.mp hmid).1, ih hrest⟩

namespace Joined

variable {parcels : List Parcel} {b : Board}

/-- What stitching gives is joined from its parcels. -/
theorem of_stitch (h : stitch parcels = .ok b)
    (hlevels : (parcels.map levelTotal).sum < UInt32.size)
    (hdata : (parcels.map dataTotal).sum < UInt32.size) : Joined parcels b := by
  obtain ⟨g, -, hcopied, hb⟩ := exists_of_stitch h
  exact ⟨hb, consistent_of_foldlM_copyInto hcopied, (Filled.of_stitch h hlevels hdata).1,
    .of_stitch h, hlevels, hdata⟩

variable {i : Nat} {p : Parcel}

/-- The run of a tile of the parcel is moved without overflow. -/
theorem toNat_levelStart (h : Joined parcels b) (hp : parcels[i]? = some p) {source : Tile}
    (hsource : source ∈ p.board.tiles) :
    (source.levelStart + (recordsBefore levelTotal parcels i).toUInt32).toNat
      = recordsBefore levelTotal parcels i + source.first := by
  have hrun := (h.parcel p (List.mem_of_getElem? hp)).run_le source hsource
  have hle : recordsBefore levelTotal parcels i + p.board.levels.size ≤ _ :=
    recordsBefore_add_le_sum hp
  have hsum := h.levels
  unfold Tile.first at hrun
  exact toNat_add_toUInt32 (by omega)

/-- A reference to an entry of the parcel's data is moved without overflow. -/
theorem toNat_dataIndex (h : Joined parcels b) (hp : parcels[i]? = some p) {index : UInt32}
    (hindex : index.toNat < p.board.data.size) :
    (index + (recordsBefore dataTotal parcels i).toUInt32).toNat
      = recordsBefore dataTotal parcels i + index.toNat := by
  have hle : recordsBefore dataTotal parcels i + p.board.data.size ≤ _ :=
    recordsBefore_add_le_sum hp
  have hsum := h.data
  exact toNat_add_toUInt32 (by omega)

/-- Where a cell with levels lands, there is its tile with its run moved. -/
theorem tile (h : Joined parcels b) (hp : parcels[i]? = some p) {c d : Cell}
    (hlands : p.LandsOn b.grid c d) (hd : b.grid.contains d = true) :
    ∃ source target, p.board.tile? c = some source ∧ b.tile? d = some target ∧
      target.count = source.count ∧
      target.first = recordsBefore levelTotal parcels i + source.first := by
  obtain ⟨source, target, hsource, htarget, hstored⟩ := h.filled.stored trivial hp hd hlands
  obtain ⟨tile, htile, hne⟩ := hlands.occupied
  cases hsource.symm.trans htile
  rw [← hstored.levelCount] at hne
  obtain ⟨j, q, e, source', hq, hlands', hsource', rfl⟩ := h.rebased.tile htarget hne
  -- No other cell lands there, so the tile is the one of the cell.
  obtain ⟨rfl, rfl⟩ := h.filled.unique trivial trivial hp hq hd hlands hlands'
  cases hp.symm.trans hq
  cases hsource.symm.trans hsource'
  exact ⟨source, _, hsource, htarget, rfl,
    h.toNat_levelStart hp (Board.mem_tiles_of_tile? hsource)⟩

end Joined

end Battlemap
