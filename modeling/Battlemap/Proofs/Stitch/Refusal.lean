import Battlemap.Proofs.Stitch.Landing

/-!
# `Battlemap.Proofs.Stitch.Refusal`: when parcels are not put together

`Refused` lists what parcels are refused for, each case under the condition that none of
the cases before it applies: there are none, their tiles differ in size, the grid over
their footprints is too large, or two of them meet. `Parcel.MeetsEarlier` says that a cell
of a parcel lands on a tile that a parcel before it has taken, and the error names the
first such cell: of the earliest parcel, and in it the first in row-major order
(`Parcel.FirstMeeting`).

Copying can only end in two ways, with a consistent board or at the first meeting. Each
step has an outcome lemma of this form (`Parcel.placeTile_outcome`,
`Filled.foldlM_placeTile_outcome`, `Filled.copyInto_outcome`,
`Filled.foldlM_copyInto_outcome`), on top of the invariant `Filled`: what is on the board
so far says that nothing before has met, and the consistency of the board that none of the
checks on the way finds a defect.

What comes before copying is the search for a grid, which `Parcel.destination_cons` writes
out. The cases of `Refused` exclude each other (`Refused.unique`), so it is enough to show
that one of them holds whenever stitching fails; `stitch_refuses_iff` has both directions.
-/

set_option autoImplicit false

namespace Battlemap

/-! ### Consistency on the way -/

namespace Board

variable {b : Board}

/-- A board without levels is consistent. -/
theorem consistent_blank (g : Grid) (payloadSize : UInt32) :
    Board.Consistent ⟨g, payloadSize, Array.replicate g.tileCount ⟨0, 0⟩, #[], #[]⟩ where
  tileCount := Array.size_replicate
  run_le tile ht := by
    rw [(Array.mem_replicate.mp ht).2]
    exact Nat.le_refl 0
  hasData tile ht position hp := by
    rw [(Array.mem_replicate.mp ht).2] at hp
    exact absurd hp (Nat.not_lt_zero position)

/-- The records of a parcel go behind all that the tiles refer to. -/
theorem Consistent.withRecords (hb : b.Consistent) (q : Parcel) :
    (b.withRecords q).Consistent where
  tileCount := hb.tileCount
  run_le tile ht := by
    have hle := hb.run_le tile ht
    simp only [Board.withRecords, Array.size_append]
    omega
  hasData tile ht position hp level hlevel := by
    have hle := hb.run_le tile ht
    rw [Board.withRecords, Array.getElem?_append_left (by omega)] at hlevel
    obtain ⟨data, hdata, hposition⟩ := hb.hasData tile ht position hp level hlevel
    refine ⟨data, ?_, hposition⟩
    rw [Board.withRecords, Array.getElem?_append_left (Array.getElem?_eq_some_iff.mp hdata).1]
    exact hdata

/-- Nothing is wrong with a run exactly if each of its levels is there and has data that
records its position. -/
theorem runDefect?_eq_none_iff {index : Nat} {tile : Tile} :
    b.runDefect? index tile = none ↔ ∀ position < tile.count,
      ∃ level, b.levels[tile.first + position]? = some level ∧ b.HasData level position := by
  simp only [runDefect?, List.findSome?_eq_none_iff, List.mem_range]
  refine forall₂_congr fun position _ => ?_
  split
  case isTrue hle => simp [Array.getElem?_eq_none hle]
  case isFalse hlt =>
    rw [levelDefect?_eq_none_iff, Array.getElem?_eq_getElem (Nat.lt_of_not_le hlt)]
    simp

/-- A tile with levels and without a defect can be put anywhere. -/
theorem Consistent.withTile (hb : b.Consistent) {index : Nat} {placed : Tile}
    (hplaced : b.runDefect? index placed = none) (hne : placed.levelCount ≠ 0) (d : Cell) :
    (b.withTile d placed).Consistent := by
  rw [runDefect?_eq_none_iff] at hplaced
  refine ⟨?_, ?_, ?_⟩
  · show (b.tiles.setIfInBounds _ placed).size = b.grid.tileCount
    rw [Array.size_setIfInBounds]
    exact hb.tileCount
  · intro tile ht
    rcases Array.mem_or_eq_of_mem_setIfInBounds ht with hmem | rfl
    · exact hb.run_le tile hmem
    · -- The run ends behind its topmost level, which is there.
      have hpos : 0 < tile.count := Nat.pos_of_ne_zero fun hzero => hne (UInt32.toNat_inj.mp hzero)
      obtain ⟨_, hlevel, -⟩ := hplaced (tile.count - 1) (by omega)
      have hlt := (Array.getElem?_eq_some_iff.mp hlevel).1
      show tile.first + tile.count ≤ b.levels.size
      omega
  · intro tile ht
    rcases Array.mem_or_eq_of_mem_setIfInBounds ht with hmem | rfl
    · exact hb.hasData tile hmem
    · intro position hposition level hlevel
      obtain ⟨level', hlevel', hdata⟩ := hplaced position hposition
      cases hlevel'.symm.trans hlevel
      exact hdata

end Board

namespace Parcel

variable {p : Parcel} {b : Board}

/-- Where the levels of a tile of a consistent parcel are stored, the check of the tile
finds nothing. -/
theorem StoredAt.runDefect?_eq_none (hp : p.board.Consistent) {source target : Tile}
    (hsource : source ∈ p.board.tiles) (h : p.StoredAt b source target) (index : Nat) :
    b.runDefect? index target = none := by
  rw [Board.runDefect?_eq_none_iff]
  intro position hposition
  rw [Tile.count, h.levelCount] at hposition
  obtain ⟨l, d, _, hl, hd, hstored, hdata⟩ := h.level position hposition
  obtain ⟨d', hd', hrecorded⟩ := hp.hasData source hsource position hposition l hl
  cases hd.symm.trans hd'
  exact ⟨_, hstored, _, hdata, hrecorded⟩

/-- Putting down a cell of a consistent parcel whose records are on the board either
leaves the board consistent, or finds a tile with levels where the cell lands. -/
theorem placeTile_outcome (hb : b.Consistent) (hp : p.board.Consistent) {levelOffset : UInt32}
    (hrecords : ∀ source ∈ p.board.tiles,
      p.StoredAt b source ⟨source.levelCount, source.levelStart + levelOffset⟩) (c : Cell) :
    (∃ b', p.placeTile levelOffset b c = .ok b' ∧ b'.Consistent ∧
        ∃ tiles, b' = { b with tiles := tiles }) ∨
      ∃ d, p.placeTile levelOffset b c = .error (.overlap p.id d) ∧
        b.grid.contains d = true ∧ p.LandsOn b.grid c d ∧
        (b.tiles.getD (b.grid.tileIndex d) default).levelCount ≠ 0 := by
  unfold placeTile
  split
  case h_2 => exact .inl ⟨b, rfl, hb, _, rfl⟩
  case h_1 source d hsource hd =>
    obtain ⟨hin, hx, hz⟩ := landing?_eq_some_iff.mp hd
    split
    case isTrue => exact .inl ⟨b, rfl, hb, _, rfl⟩
    case isFalse hne =>
      dsimp only
      split
      case isTrue htaken =>
        exact .inr ⟨d, rfl, hin, ⟨⟨source, hsource, hne⟩, hx, hz⟩, by simpa using htaken⟩
      case isFalse =>
        have hmem := Board.mem_tiles_of_tile? hsource
        have hnone := (hrecords source hmem).runDefect?_eq_none hp hmem (b.grid.tileIndex d)
        rw [hnone]
        exact .inl ⟨_, rfl, hb.withTile hnone hne d, _, rfl⟩

/-- A consistent parcel is copied by putting down its cells behind its records. -/
theorem copyInto_eq (hp : p.board.Consistent) :
    copyInto b p
      = p.board.grid.cells.foldlM (p.placeTile b.levels.size.toUInt32) (b.withRecords p) := by
  rw [copyInto, Board.defect?_eq_none_iff.mpr hp]
  rfl

/-! ### Parcels that meet -/

/-- The cell `c` of the parcel `p`, which has the number `k`, lands on the tile `d`, and a
cell of a parcel before it does. -/
structure MeetsEarlier (g : Grid) (parcels : List Parcel) (k : Nat) (p : Parcel) (c d : Cell) :
    Prop where
  parcel : parcels[k]? = some p
  contains : g.contains d = true
  lands : p.LandsOn g c d
  earlier : ∃ (j : Nat) (q : Parcel) (e : Cell), j < k ∧ parcels[j]? = some q ∧ q.LandsOn g e d

/-- No parcel before the one with the number `k` meets an earlier one, and neither does a
cell of it that stands before `c` in row-major order. -/
structure FirstMeeting (g : Grid) (parcels : List Parcel) (k : Nat) (p : Parcel) (c d : Cell) :
    Prop where
  meets : MeetsEarlier g parcels k p c d
  first : ∀ {j : Nat} {q : Parcel} {e f : Cell}, MeetsEarlier g parcels j q e f →
    k < j ∨ j = k ∧ p.board.grid.tileIndex c ≤ p.board.grid.tileIndex e

/-- Cells with levels of two of the parcels land on one tile of the grid. -/
def Overlapping (g : Grid) (parcels : List Parcel) : Prop :=
  ∃ (i j : Nat) (p q : Parcel) (c e d : Cell), i ≠ j ∧ parcels[i]? = some p ∧
    parcels[j]? = some q ∧ g.contains d = true ∧ p.LandsOn g c d ∧ q.LandsOn g e d

variable {g : Grid} {parcels : List Parcel}

/-- Parcels overlap if one of them meets an earlier one. -/
theorem MeetsEarlier.overlapping {k : Nat} {c d : Cell} (h : MeetsEarlier g parcels k p c d) :
    Overlapping g parcels := by
  obtain ⟨j, q, e, hjk, hq, he⟩ := h.earlier
  exact ⟨j, k, q, p, e, c, d, hjk.ne, hq, h.parcel, h.contains, he, h.lands⟩

/-- There is only one first meeting. -/
theorem FirstMeeting.unique {k k' : Nat} {p' : Parcel} {c c' d d' : Cell}
    (h : FirstMeeting g parcels k p c d) (h' : FirstMeeting g parcels k' p' c' d') :
    p = p' ∧ d = d' := by
  have hle := h.first h'.meets
  have hle' := h'.first h.meets
  obtain rfl : k = k' := by omega
  cases h.meets.parcel.symm.trans h'.meets.parcel
  have hindex : p.board.grid.tileIndex c = p.board.grid.tileIndex c' := by omega
  obtain rfl : c = c' :=
    Grid.tileIndex_inj h.meets.lands.contains h'.meets.lands.contains hindex
  exact ⟨rfl, h.meets.lands.inj h'.meets.lands⟩

end Parcel

/-! ### How copying ends -/

namespace Filled

open Parcel

variable {parcels : List Parcel} {b : Board} {k : Nat} {p : Parcel}

/-- As nothing that is on the board has met, a meeting of the next cell is the first. -/
theorem firstMeeting {early late : List Cell} {c d : Cell}
    (h : Filled parcels (fun i e => i < k ∨ i = k ∧ e ∈ early) b)
    (hcells : p.board.grid.cells = early ++ c :: late)
    (hmeets : MeetsEarlier b.grid parcels k p c d) : FirstMeeting b.grid parcels k p c d := by
  refine ⟨hmeets, ?_⟩
  intro j q e f hother
  obtain ⟨i, r, a, hij, hr, hlands⟩ := hother.earlier
  rcases lt_trichotomy j k with hjk | rfl | hkj
  · -- Both parcels are on the board, where no two cells share a tile.
    obtain ⟨rfl, -⟩ := h.unique (.inl hjk) (.inl (hij.trans hjk)) hother.parcel hr hother.contains
      hother.lands hlands
    exact absurd hij (lt_irrefl _)
  · refine .inr ⟨rfl, ?_⟩
    by_contra hlt
    cases hother.parcel.symm.trans hmeets.parcel
    have he := Grid.mem_of_tileIndex_lt hcells hother.lands.contains (not_le.mp hlt)
    obtain ⟨rfl, -⟩ := h.unique (.inr ⟨rfl, he⟩) (.inl hij) hother.parcel hr hother.contains
      hother.lands hlands
    exact absurd hij (lt_irrefl _)
  · exact .inl hkj

/-- A tile with levels on which the next cell lands was taken by a parcel before. -/
theorem meetsEarlier {early late : List Cell} {c d : Cell}
    (h : Filled parcels (fun i e => i < k ∨ i = k ∧ e ∈ early) b) (hp : parcels[k]? = some p)
    (hcells : p.board.grid.cells = early ++ c :: late) (hd : b.grid.contains d = true)
    (hlands : p.LandsOn b.grid c d)
    (htaken : (b.tiles.getD (b.grid.tileIndex d) default).levelCount ≠ 0) :
    MeetsEarlier b.grid parcels k p c d := by
  have hlt : b.grid.tileIndex d < b.tiles.size := h.tileCount ▸ Grid.tileIndex_lt hd
  have htile : b.tile? d = some (b.tiles.getD (b.grid.tileIndex d) default) := by
    simp [Board.tile?, hd, hlt]
  obtain ⟨i, q, e, hdone, hq, hlands'⟩ := h.origin htile htaken
  rcases hdone with hik | ⟨rfl, he⟩
  · exact ⟨hp, hd, hlands, i, q, e, hik, hq, hlands'⟩
  · -- No other cell of the parcel itself lands there.
    cases hp.symm.trans hq
    obtain rfl := hlands'.source_inj hlands
    obtain ⟨n, hn⟩ := List.mem_iff_getElem?.mp he
    have hn' := (List.getElem?_eq_some_iff.mp hn).1
    have hfirst : p.board.grid.cells[n]? = some e := by
      rw [hcells, List.getElem?_append_left hn', hn]
    have hsecond : p.board.grid.cells[early.length]? = some e := by simp [hcells]
    have hindex := (Grid.tileIndex_of_getElem?_cells hfirst).trans
      (Grid.tileIndex_of_getElem?_cells hsecond).symm
    omega

/-- Putting down the rest of a parcel's cells ends with a consistent board or at the first
meeting. -/
theorem foldlM_placeTile_outcome (hp : parcels[k]? = some p) (hpc : p.board.Consistent)
    {levelOffset : UInt32} {early rest : List Cell} (hcells : p.board.grid.cells = early ++ rest)
    (h : Filled parcels (fun i e => i < k ∨ i = k ∧ e ∈ early) b) (hb : b.Consistent)
    (hrecords : ∀ source ∈ p.board.tiles,
      p.StoredAt b source ⟨source.levelCount, source.levelStart + levelOffset⟩) :
    (∃ b', rest.foldlM (p.placeTile levelOffset) b = .ok b' ∧ b'.Consistent) ∨
      ∃ c d, rest.foldlM (p.placeTile levelOffset) b = .error (.overlap p.id d) ∧
        FirstMeeting b.grid parcels k p c d := by
  induction rest generalizing b early with
  | nil => exact .inl ⟨b, rfl, hb⟩
  | cons c rest ih =>
    rcases placeTile_outcome hb hpc hrecords c with
      ⟨next, hplace, hnext, tiles, rfl⟩ | ⟨d, hplace, hd, hlands, htaken⟩
    · -- The cells that have been put down now go up to `c`.
      have hplaced : Filled parcels (fun i e => i < k ∨ i = k ∧ e ∈ early ++ [c])
          { b with tiles := tiles } := by
        refine (h.place hp hrecords hplace).congr fun _ _ _ => ?_
        simp only [List.mem_append, List.mem_singleton, or_assoc, and_or_left]
      rw [List.foldlM_cons, hplace]
      exact ih (by simp [hcells]) hplaced hnext
        (fun source hsource => ⟨rfl, (hrecords source hsource).level⟩)
    · have hmeets := h.meetsEarlier hp hcells hd hlands htaken
      refine .inr ⟨c, d, ?_, h.firstMeeting hcells hmeets⟩
      rw [List.foldlM_cons, hplace]
      rfl

/-- Copying one more parcel ends with a consistent board or at the first meeting. -/
theorem copyInto_outcome (h : Filled parcels (fun i _ => i < k) b) (hb : b.Consistent)
    (hp : parcels[k]? = some p) (hpc : p.board.Consistent)
    (hlevels : b.levels.size + p.board.levels.size < UInt32.size)
    (hdata : b.data.size + p.board.data.size < UInt32.size) :
    (∃ b', Parcel.copyInto b p = .ok b' ∧ b'.Consistent) ∨
      ∃ c d, Parcel.copyInto b p = .error (.overlap p.id d) ∧
        FirstMeeting b.grid parcels k p c d := by
  rw [copyInto_eq hpc]
  have hstart : Filled parcels (fun i e => i < k ∨ i = k ∧ e ∈ []) (b.withRecords p) :=
    (h.withRecords p).congr fun _ _ _ => by simp
  exact hstart.foldlM_placeTile_outcome hp hpc (List.nil_append _).symm (hb.withRecords p)
    fun source => storedAt_withRecords hpc hlevels hdata

/-- Copying all parcels that are left ends with a consistent board, on which no two
parcels meet, or at the first meeting. -/
theorem foldlM_copyInto_outcome {rest : List Parcel} (h : Filled parcels (fun i _ => i < k) b)
    (hb : b.Consistent) (hrest : parcels.drop k = rest)
    (hparcels : ∀ p ∈ rest, p.board.Consistent)
    (hlevels : b.levels.size + (rest.map fun p => p.board.levels.size).sum < UInt32.size)
    (hdata : b.data.size + (rest.map fun p => p.board.data.size).sum < UInt32.size) :
    (∃ b', rest.foldlM Parcel.copyInto b = .ok b' ∧ b'.Consistent ∧ ¬ Overlapping b.grid parcels) ∨
      ∃ i p c d, rest.foldlM Parcel.copyInto b = .error (.overlap p.id d) ∧
        FirstMeeting b.grid parcels i p c d := by
  induction rest generalizing b k with
  | nil =>
    -- All parcels have been copied, and no two of their cells share a tile.
    refine .inl ⟨b, rfl, hb, ?_⟩
    rintro ⟨i, j, p, q, c, e, d, hne, hp, hq, hd, hc, he⟩
    have hall {i : Nat} {p : Parcel} (hi : parcels[i]? = some p) : i < k :=
      (List.getElem?_eq_some_iff.mp hi).1.trans_le (List.drop_eq_nil_iff.mp hrest)
    exact hne (h.unique (hall hp) (hall hq) hp hq hd hc he).1
  | cons p rest ih =>
    simp only [List.map_cons, List.sum_cons] at hlevels hdata
    obtain ⟨hp, hdrop⟩ := getElem?_of_drop_eq_cons hrest
    rcases h.copyInto_outcome hb hp (hparcels p (by simp)) (by omega) (by omega) with
      ⟨next, hcopy, hnext⟩ | ⟨c, d, hcopy, hfirst⟩
    · obtain ⟨hfilled, tiles, rfl⟩ := h.copyInto hp (by omega) (by omega) hcopy
      have hsize : (b.withRecords p).levels.size = b.levels.size + p.board.levels.size ∧
          (b.withRecords p).data.size = b.data.size + p.board.data.size := by
        simp [Board.withRecords]
      rw [List.foldlM_cons, hcopy]
      exact ih hfilled hnext hdrop (fun q hq => hparcels q (by simp [hq])) (by dsimp only; omega)
        (by dsimp only; omega)
    · refine .inr ⟨k, p, c, d, ?_, hfirst⟩
      rw [List.foldlM_cons, hcopy]
      rfl

end Filled

/-! ### The grid over all footprints -/

namespace Parcel

/-- The box around the footprints of all parcels. -/
def footprints (parcels : List Parcel) : Box :=
  parcels.foldl (fun bounds p => bounds.merge p.footprint) .empty

/-- How many columns and rows of tiles the footprints of all parcels need. -/
def neededSize (parcels : List Parcel) (tileSize : Single) : UInt64 × UInt64 :=
  Grid.dimensionsFor (footprints parcels) tileSize

/-- On some axis more tiles are needed than can be addressed. -/
def TooLarge (parcels : List Parcel) (tileSize : Single) : Prop :=
  Grid.dimensionLimit < (neededSize parcels tileSize).1.toNat ∨
    Grid.dimensionLimit < (neededSize parcels tileSize).2.toNat

instance (parcels : List Parcel) (tileSize : Single) : Decidable (TooLarge parcels tileSize) :=
  inferInstanceAs (Decidable (_ ∨ _))

/-- The grid over the footprints of all parcels. -/
def spanningGrid (parcels : List Parcel) (tileSize : Single) : Grid :=
  ⟨(neededSize parcels tileSize).1.toUInt32, (neededSize parcels tileSize).2.toUInt32, tileSize,
    (footprints parcels).min, (footprints parcels).min.y, (footprints parcels).max.y⟩

/-- The tiles of the parcel have another size. -/
def differsFrom (tileSize : Single) (p : Parcel) : Bool :=
  !p.board.grid.tileSize.sameNumber tileSize

/-- Merging the footprints stops at the first parcel whose tiles have another size. -/
theorem foldlM_mergeFootprints (parcels : List Parcel) (tileSize : Single) (bounds : Box) :
    parcels.foldlM (mergeFootprints tileSize) bounds
      = match parcels.find? (differsFrom tileSize) with
        | some p => .error (.tileSizeMismatch p.id tileSize p.board.grid.tileSize)
        | none => .ok (parcels.foldl (fun bounds p => bounds.merge p.footprint) bounds) := by
  induction parcels generalizing bounds with
  | nil => rfl
  | cons p rest ih =>
    rw [List.foldlM_cons, List.find?_cons, mergeFootprints, differsFrom]
    cases p.board.grid.tileSize.sameNumber tileSize with
    | false => rfl
    | true => exact ih (bounds.merge p.footprint)

/-- What the destination of some parcels is, and why there may be none. -/
theorem destination_cons (first : Parcel) (rest : List Parcel) :
    destination (first :: rest)
      = match (first :: rest).find? (differsFrom first.board.grid.tileSize) with
        | some p => .error
            (.tileSizeMismatch p.id first.board.grid.tileSize p.board.grid.tileSize)
        | none =>
          if TooLarge (first :: rest) first.board.grid.tileSize then
            .error (.gridTooLarge (neededSize (first :: rest) first.board.grid.tileSize).1
              (neededSize (first :: rest) first.board.grid.tileSize).2 Grid.dimensionLimit)
          else .ok (spanningGrid (first :: rest) first.board.grid.tileSize) := by
  show ((first :: rest).foldlM (mergeFootprints first.board.grid.tileSize) .empty >>= _) = _
  -- Merging the footprints stops at the first parcel with tiles of another size.
  rw [foldlM_mergeFootprints]
  cases (first :: rest).find? (differsFrom first.board.grid.tileSize) with
  | some p => rfl
  | none =>
    by_cases hlarge : TooLarge (first :: rest) first.board.grid.tileSize
    · rw [if_pos hlarge]
      exact if_pos hlarge
    · rw [if_neg hlarge]
      exact if_neg hlarge

end Parcel

/-! ### Why stitching fails -/

open Parcel (TooLarge neededSize spanningGrid differsFrom FirstMeeting Overlapping)

/-- What parcels are refused for. Each case but the first applies only if none of those
before it does. -/
inductive Refused : List Parcel → StitchError → Prop where
  | noParcels : Refused [] .noParcels
  /-- The parcel is the first one whose tiles differ in size from those of the first. -/
  | tileSizeMismatch {first p : Parcel} {rest : List Parcel}
      (hp : (first :: rest).find? (differsFrom first.board.grid.tileSize) = some p) :
      Refused (first :: rest)
        (.tileSizeMismatch p.id first.board.grid.tileSize p.board.grid.tileSize)
  | gridTooLarge {first : Parcel} {rest : List Parcel}
      (hsame : (first :: rest).find? (differsFrom first.board.grid.tileSize) = none)
      (hlarge : TooLarge (first :: rest) first.board.grid.tileSize) :
      Refused (first :: rest)
        (.gridTooLarge (neededSize (first :: rest) first.board.grid.tileSize).1
          (neededSize (first :: rest) first.board.grid.tileSize).2 Grid.dimensionLimit)
  /-- The parcel is the first one with a cell that lands where a parcel before has put one,
  and the tile is where the first such cell of it lands. -/
  | overlap {first p : Parcel} {rest : List Parcel} {k : Nat} {c d : Cell}
      (hsame : (first :: rest).find? (differsFrom first.board.grid.tileSize) = none)
      (hfits : ¬ TooLarge (first :: rest) first.board.grid.tileSize)
      (hmeeting : FirstMeeting (spanningGrid (first :: rest) first.board.grid.tileSize)
        (first :: rest) k p c d) :
      Refused (first :: rest) (.overlap p.id d)

section Stitching

variable {parcels : List Parcel}

/-- Without a grid for all parcels there is no map. -/
theorem stitch_eq_error {e : StitchError} (h : Parcel.destination parcels = .error e) :
    stitch parcels = .error e := by
  unfold stitch
  rw [h]
  rfl

/-- On a grid for all parcels, stitching makes a map unless two of them meet. -/
theorem stitch_outcome {g : Grid} (hg : Parcel.destination parcels = .ok g)
    (hparcels : ∀ p ∈ parcels, p.board.Consistent)
    (hlevels : (parcels.map fun p => p.board.levels.size).sum < UInt32.size)
    (hdata : (parcels.map fun p => p.board.data.size).sum < UInt32.size) :
    (∃ b, stitch parcels = .ok b ∧ ¬ Overlapping g parcels) ∨
      ∃ k p c d, stitch parcels = .error (.overlap p.id d) ∧ FirstMeeting g parcels k p c d := by
  unfold stitch
  rw [hg]
  have hcopies := (Filled.blank parcels g (longestPayload parcels)).foldlM_copyInto_outcome
    (Board.consistent_blank g _) (List.drop_zero : parcels.drop 0 = parcels) hparcels
    (by simpa using hlevels) (by simpa using hdata)
  rcases hcopies with ⟨b, hcopied, hb, hnone⟩ | ⟨k, p, c, d, hcopied, hfirst⟩
  · -- The last check finds nothing, since the board was consistent all the way.
    have hparts : Board.ofParts b.grid b.payloadSize b.tiles b.levels b.data = .ok b :=
      Board.ofParts_eq_ok_iff.mpr ⟨rfl, hb⟩
    refine .inl ⟨b, ?_, hnone⟩
    show (parcels.foldlM Parcel.copyInto _ >>= _) = _
    rw [hcopied]
    simp only [bind, Except.bind, hparts]
    rfl
  · refine .inr ⟨k, p, c, d, ?_, hfirst⟩
    show (parcels.foldlM Parcel.copyInto _ >>= _) = _
    rw [hcopied]
    rfl

/-- Parcels with consistent boards are refused for one of the reasons, or put together. -/
theorem exists_of_stitch_or_refused (hparcels : ∀ p ∈ parcels, p.board.Consistent)
    (hlevels : (parcels.map fun p => p.board.levels.size).sum < UInt32.size)
    (hdata : (parcels.map fun p => p.board.data.size).sum < UInt32.size) :
    (∃ b, stitch parcels = .ok b ∧ ∀ e, ¬ Refused parcels e) ∨
      ∃ e, stitch parcels = .error e ∧ Refused parcels e := by
  cases parcels with
  | nil => exact .inr ⟨_, rfl, .noParcels⟩
  | cons first rest =>
    have hdestination := Parcel.destination_cons first rest
    cases hfind : (first :: rest).find? (differsFrom first.board.grid.tileSize) with
    | some p =>
      rw [hfind] at hdestination
      exact .inr ⟨_, stitch_eq_error hdestination, .tileSizeMismatch hfind⟩
    | none =>
      rw [hfind] at hdestination
      dsimp only at hdestination
      split at hdestination
      case isTrue hlarge =>
        exact .inr ⟨_, stitch_eq_error hdestination, .gridTooLarge hfind hlarge⟩
      case isFalse hfits =>
        rcases stitch_outcome hdestination hparcels hlevels hdata with
          ⟨b, hb, hnone⟩ | ⟨k, p, c, d, herror, hfirst⟩
        · -- Every reason contradicts a check that was passed.
          refine .inl ⟨b, hb, ?_⟩
          intro e he
          cases he with
          | tileSizeMismatch hp => exact nomatch hfind.symm.trans hp
          | gridTooLarge _ hlarge => exact hfits hlarge
          | overlap _ _ hmeeting => exact hnone hmeeting.meets.overlapping
        · exact .inr ⟨_, herror, .overlap hfind hfits hfirst⟩

/-- Parcels are refused for one reason only. -/
theorem Refused.unique {e e' : StitchError} (h : Refused parcels e) (h' : Refused parcels e') :
    e = e' := by
  -- Reasons of different kinds contradict each other's conditions.
  cases h with
  | noParcels =>
    cases h'
    rfl
  | tileSizeMismatch hp =>
    cases h' with
    | tileSizeMismatch hp' =>
      cases hp.symm.trans hp'
      rfl
    | gridTooLarge hsame => exact nomatch hp.symm.trans hsame
    | overlap hsame => exact nomatch hp.symm.trans hsame
  | gridTooLarge hsame hlarge =>
    cases h' with
    | tileSizeMismatch hp' => exact nomatch hsame.symm.trans hp'
    | gridTooLarge => rfl
    | overlap _ hfits => exact absurd hlarge hfits
  | overlap hsame hfits hmeeting =>
    cases h' with
    | tileSizeMismatch hp' => exact nomatch hsame.symm.trans hp'
    | gridTooLarge _ hlarge => exact absurd hlarge hfits
    | overlap _ _ hmeeting' =>
      obtain ⟨rfl, rfl⟩ := hmeeting.unique hmeeting'
      rfl

/-- Stitching consistent boards fails with an error exactly if they are refused for it. -/
theorem stitch_eq_error_iff (hparcels : ∀ p ∈ parcels, p.board.Consistent)
    (hlevels : (parcels.map fun p => p.board.levels.size).sum < UInt32.size)
    (hdata : (parcels.map fun p => p.board.data.size).sum < UInt32.size) (e : StitchError) :
    stitch parcels = .error e ↔ Refused parcels e := by
  rcases exists_of_stitch_or_refused hparcels hlevels hdata with
    ⟨b, hb, hnone⟩ | ⟨e', he', hrefused⟩
  · exact iff_of_false (by simp [hb]) (hnone e)
  · -- There is one reason only, so the error that comes out is the one it names.
    rw [he']
    constructor
    · intro heq
      cases heq
      exact hrefused
    · intro h
      rw [hrefused.unique h]

/-- With tiles of one size and room for all footprints, two parcels overlap exactly if stitching
says so. -/
theorem exists_overlap_iff {first : Parcel} {rest : List Parcel}
    (hparcels : ∀ p ∈ first :: rest, p.board.Consistent)
    (hlevels : ((first :: rest).map fun p => p.board.levels.size).sum < UInt32.size)
    (hdata : ((first :: rest).map fun p => p.board.data.size).sum < UInt32.size)
    (hsame : ∀ p ∈ first :: rest,
      p.board.grid.tileSize.sameNumber first.board.grid.tileSize = true)
    (hfits : ¬ TooLarge (first :: rest) first.board.grid.tileSize) :
    (∃ id d, stitch (first :: rest) = .error (.overlap id d)) ↔
      Overlapping (spanningGrid (first :: rest) first.board.grid.tileSize) (first :: rest) := by
  constructor
  · rintro ⟨id, d, hfails⟩
    cases (stitch_eq_error_iff hparcels hlevels hdata _).mp hfails with
    | overlap _ _ hmeeting => exact hmeeting.meets.overlapping
  · intro hoverlap
    have hfind : (first :: rest).find? (differsFrom first.board.grid.tileSize) = none := by
      simpa [List.find?_eq_none, differsFrom] using hsame
    have hg := Parcel.destination_cons first rest
    rw [hfind] at hg
    dsimp only at hg
    rw [if_neg hfits] at hg
    -- Copying cannot end with a map, on which no two parcels overlap.
    rcases stitch_outcome hg hparcels hlevels hdata with ⟨b, -, hnone⟩ | ⟨k, p, c, d, hfails, -⟩
    · exact absurd hoverlap hnone
    · exact ⟨p.id, d, hfails⟩

/-- Stitching checked maps fails for exactly the reasons that `Refused` lists, with the
error that belongs to the reason, and makes a map if there is none. On a grid that is not
too large, it fails with an overlap exactly if two parcels have cells with levels that land
on one tile. It never finds a defect in a parcel or in the result. -/
theorem stitch_refuses_iff
    (hparts : ∀ p ∈ parcels, Board.ofParts p.board.grid p.board.payloadSize p.board.tiles
      p.board.levels p.board.data = .ok p.board)
    (hlevels : (parcels.map fun p => p.board.levels.size).sum < UInt32.size)
    (hdata : (parcels.map fun p => p.board.data.size).sum < UInt32.size) :
    (∀ e, stitch parcels = .error e ↔ Refused parcels e) ∧
      ((∃ b, stitch parcels = .ok b) ↔ ∀ e, ¬ Refused parcels e) ∧
      (∀ first rest, parcels = first :: rest →
        (∀ p ∈ parcels, p.board.grid.tileSize.sameNumber first.board.grid.tileSize = true) →
        ¬ TooLarge parcels first.board.grid.tileSize →
        ((∃ id d, stitch parcels = .error (.overlap id d)) ↔
          Overlapping (spanningGrid parcels first.board.grid.tileSize) parcels)) ∧
      ∀ id defect, stitch parcels ≠ .error (.invalid id defect) ∧
        stitch parcels ≠ .error (.inconsistent defect) := by
  have hconsistent (p) (hp : p ∈ parcels) : p.board.Consistent :=
    (Board.ofParts_eq_ok_iff.mp (hparts p hp)).2
  have herror := stitch_eq_error_iff hconsistent hlevels hdata
  refine ⟨herror, ?_, ?_, ?_⟩
  · rcases exists_of_stitch_or_refused hconsistent hlevels hdata with
      ⟨b, hb, hnone⟩ | ⟨e, he, hrefused⟩
    · exact iff_of_true ⟨b, hb⟩ hnone
    · exact iff_of_false (by simp [he]) fun hnone => hnone e hrefused
  · rintro first rest rfl hsame hfits
    exact exists_overlap_iff hconsistent hlevels hdata hsame hfits
  · -- None of the reasons is a defect.
    intro id defect
    constructor
    · intro h
      nomatch (herror _).mp h
    · intro h
      nomatch (herror _).mp h

end Stitching

/-- The turned row moved so that its tile with levels meets the tile with three floors. -/
def meetingPair : List Parcel :=
  [⟨Board.threeFloors, .zero, .none, 5⟩, ⟨tileRow, ⟨.zero, .one, -.one⟩, .quarter, 9⟩]

/-- Two parcels that meet are refused, with the second one and the cell in the error. -/
theorem meetingPair_refused :
    stitch meetingPair = .error (.overlap 9 ⟨0, 1⟩) ∧
      Refused meetingPair (.overlap 9 ⟨0, 1⟩) ∧
      Overlapping (spanningGrid meetingPair .one) meetingPair := by
  have hfails : stitch meetingPair = .error (.overlap 9 ⟨0, 1⟩) := by decide +kernel
  have hparts : ∀ p ∈ meetingPair, Board.ofParts p.board.grid p.board.payloadSize p.board.tiles
      p.board.levels p.board.data = .ok p.board := by decide +kernel
  obtain ⟨herror, -, hoverlap, -⟩ :=
    stitch_refuses_iff hparts (by decide +kernel) (by decide +kernel)
  exact ⟨hfails, (herror _).mp hfails,
    (hoverlap _ _ rfl (by decide +kernel) (by decide +kernel)).mp ⟨9, ⟨0, 1⟩, hfails⟩⟩

end Battlemap
