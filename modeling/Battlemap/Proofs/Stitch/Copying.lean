import Battlemap.Proofs.Lookup
import Battlemap.Proofs.MapFile.Reader
import Battlemap.Stitch.Composition
import Mathlib.Algebra.Ring.Nat

/-!
# `Battlemap.Proofs.Stitch.Copying`: stitching copies the content of parcels

`Parcel.LandsOn` says which cell of the destination a cell of a parcel
lands on, and `Parcel.StoredAt` what it means that the levels of a tile of
the parcel are stored in a tile of a board: position by position the
level, turned and raised, with its data under the parcel's identifier. What
turning does to the normal of a plane (`Rotation.facing`) and raising to its
offset is written out there; `Level.placed_eq` finds both in the records
that are copied.

`Filled` is the invariant of stitching. Of the cells that have been put
down, each one with levels is stored where it lands, no two land on one
tile, and every tile with levels has one of them for its origin. Putting
down a tile keeps it (`Filled.place`), since the tile that it lands on must
have been empty, and so do the records of one more parcel
(`Filled.withRecords`), since they go behind all others. `stitch_copies`
reads it off at the end.
-/

set_option autoImplicit false

namespace Battlemap

/-- An index and an offset that have room together are added as numbers. -/
theorem toNat_add_toUInt32 {index : UInt32} {offset : Nat}
    (h : offset + index.toNat < UInt32.size) :
    (index + offset.toUInt32).toNat = offset + index.toNat := by
  rw [UInt32.toNat_add, UInt32.toNat_ofNat_of_lt' (Nat.lt_of_le_of_lt (Nat.le_add_right _ _) h),
    Nat.add_comm]
  exact Nat.mod_eq_of_lt h

/-- What a list starts with after some elements, and what it goes on with. -/
theorem getElem?_of_drop_eq_cons {α : Type} {xs rest : List α} {k : Nat} {x : α}
    (h : xs.drop k = x :: rest) : xs[k]? = some x ∧ xs.drop (k + 1) = rest := by
  constructor
  · rw [← Nat.add_zero k, ← List.getElem?_drop, h]
    rfl
  · rw [← List.tail_drop, h, List.tail_cons]

/-! ### Turned and raised levels -/

/-- The sign of a number is flipped back by a second change. -/
theorem Single.neg_neg (a : Single) : - -a = a := by
  show Single.mk (a.bits ^^^ 0x80000000 ^^^ 0x80000000) = a
  rw [UInt32.xor_assoc, UInt32.xor_self, UInt32.xor_zero]

/-- Where a direction points after a rotation. A quarter turn leads it from X towards Z. -/
def Rotation.facing : Rotation → Vec3 → Vec3
  | .none, n => n
  | .quarter, n => ⟨-n.z, n.y, n.x⟩
  | .half, n => ⟨-n.x, n.y, -n.z⟩
  | .threeQuarters, n => ⟨n.z, n.y, -n.x⟩

/-- A rotation about the vertical axis does not change how far a direction points up. -/
theorem Rotation.facing_y (r : Rotation) (n : Vec3) : (r.facing n).y = n.y := by cases r <;> rfl

/-- A turned plane faces where the rotation leads its normal, and has the offset it had. -/
theorem Plane.turned_quarterTurns (plane : Plane) (r : Rotation) :
    plane.turned r.quarterTurns = ⟨r.facing plane.normal, plane.offset⟩ := by
  cases r with
  | none => rfl
  | quarter => rfl
  | half => rfl
  | threeQuarters =>
    show Plane.mk ⟨- -plane.normal.z, plane.normal.y, -plane.normal.x⟩ plane.offset = _
    rw [Single.neg_neg]
    rfl

/-- A turned and raised level, field by field. The offset of a plane `n · q + offset = 0` that
is moved up by `dy` loses `n.y * dy`. -/
theorem Level.placed_eq (l : Level) (r : Rotation) (dy : Single) (dataOffset : UInt32) :
    l.placed r dy dataOffset =
      { floor := ⟨r.facing l.floor.normal, l.floor.offset - l.floor.normal.y * dy⟩
        ceiling := ⟨r.facing l.ceiling.normal, l.ceiling.offset - l.ceiling.normal.y * dy⟩
        baseHeight := l.baseHeight + dy
        roofDelta := l.roofDelta
        dataIndex := l.dataIndex + dataOffset
        reserved := l.reserved } := by
  simp only [Level.placed, Plane.turned_quarterTurns, Plane.raised, Rotation.facing_y]

namespace Parcel

/-! ### Where cells land -/

/-- A cell of the parcel with levels lands on the cell `d`: turned with the
parcel, and moved by its distance from the origin, rounded to whole tiles. -/
structure LandsOn (p : Parcel) (g : Grid) (c d : Cell) : Prop where
  occupied : ∃ tile, p.board.tile? c = some tile ∧ tile.levelCount ≠ 0
  x : (d.x.toNat : Int) = ((p.position.x - g.origin.x) / g.tileSize).round.toInt64.toInt
    + (p.rotation.cell p.board.grid.width p.board.grid.height c).x.toNat
  z : (d.z.toNat : Int) = ((p.position.z - g.origin.z) / g.tileSize).round.toInt64.toInt
    + (p.rotation.cell p.board.grid.width p.board.grid.height c).z.toNat

/-- A cell of a parcel is put where its turned and moved column and row are, if this is inside
the grid. -/
theorem landing?_eq_some_iff {p : Parcel} {g : Grid} {c d : Cell} :
    p.landing? g c = some d ↔ g.contains d = true ∧
      (d.x.toNat : Int) = ((p.position.x - g.origin.x) / g.tileSize).round.toInt64.toInt
        + (p.rotation.cell p.board.grid.width p.board.grid.height c).x.toNat ∧
      (d.z.toNat : Int) = ((p.position.z - g.origin.z) / g.tileSize).round.toInt64.toInt
        + (p.rotation.cell p.board.grid.width p.board.grid.height c).z.toNat := by
  have hw := g.width.toNat_lt
  have hh := g.height.toNat_lt
  unfold landing? axisOffset
  dsimp only
  -- What the sums are does not matter: a sum that is inside the grid is that of one column or
  -- row.
  generalize ((p.position.x - g.origin.x) / g.tileSize).round.toInt64.toInt
    + (p.rotation.cell p.board.grid.width p.board.grid.height c).x.toNat = x
  generalize ((p.position.z - g.origin.z) / g.tileSize).round.toInt64.toInt
    + (p.rotation.cell p.board.grid.width p.board.grid.height c).z.toNat = z
  rw [Option.ite_none_right_eq_some, Option.some.injEq, Grid.contains_iff]
  simp only [Grid.inBounds, Bool.and_eq_true, decide_eq_true_eq]
  constructor
  · rintro ⟨hin, rfl⟩
    simp
    omega
  · rintro ⟨hin, hx, hz⟩
    exact ⟨by omega, Cell.ext_toNat (by simp [← hx]) (by simp [← hz])⟩

/-- A cell lands on one cell only. -/
theorem LandsOn.inj {p : Parcel} {g : Grid} {c d e : Cell} (hd : p.LandsOn g c d)
    (he : p.LandsOn g c e) : d = e :=
  Cell.ext_toNat (Int.ofNat_inj.mp (hd.x.trans he.x.symm))
    (Int.ofNat_inj.mp (hd.z.trans he.z.symm))

/-! ### What is stored where a cell lands -/

/-- The levels of the tile `source` of the parcel are stored in the tile
`target` of the board: position by position the level, its planes turned
and raised with the parcel, and its data with the parcel's identifier and
a payload cut or filled with zeros to the board's length. -/
structure StoredAt (p : Parcel) (b : Board) (source target : Tile) : Prop where
  levelCount : target.levelCount = source.levelCount
  level : ∀ position < source.count, ∃ (l : Level) (d : LevelData) (index : UInt32),
    p.board.levels[source.first + position]? = some l ∧
    p.board.data[l.dataIndex.toNat]? = some d ∧
    b.levels[target.first + position]? = some
      { floor := ⟨p.rotation.facing l.floor.normal,
          l.floor.offset - l.floor.normal.y * p.position.y⟩
        ceiling := ⟨p.rotation.facing l.ceiling.normal,
          l.ceiling.offset - l.ceiling.normal.y * p.position.y⟩
        baseHeight := l.baseHeight + p.position.y
        roofDelta := l.roofDelta
        dataIndex := index
        reserved := l.reserved } ∧
    b.data[index.toNat]? = some
      { header := { d.header with instanceId := p.id }
        payload := d.payload.take b.payloadSize.toNat
          ++ List.replicate (b.payloadSize.toNat - d.payload.length) 0 }

end Parcel

namespace Board

/-- The board with the records of a parcel behind its own. -/
def withRecords (b : Board) (p : Parcel) : Board :=
  { b with
    levels := b.levels ++ p.board.levels.map fun level =>
      level.placed p.rotation p.position.y b.data.size.toUInt32
    data := b.data ++ p.board.data.map fun data => data.placed p.id b.payloadSize.toNat }

/-- The board with another tile at a cell. -/
def withTile (b : Board) (d : Cell) (placed : Tile) : Board :=
  { b with tiles := b.tiles.setIfInBounds (b.grid.tileIndex d) placed }

/-- Putting a tile at a cell changes the tile of that cell only. -/
theorem tile?_withTile {b : Board} (hcount : b.tiles.size = b.grid.tileCount) {d : Cell}
    (hd : b.grid.contains d = true) (placed : Tile) (e : Cell) :
    (b.withTile d placed).tile? e = if e = d then some placed else b.tile? e := by
  have hlt : b.grid.tileIndex d < b.tiles.size := hcount ▸ Grid.tileIndex_lt hd
  simp only [withTile, tile?, Array.getElem?_setIfInBounds]
  by_cases he : b.grid.contains e = true
  · rw [if_pos he, if_pos he]
    by_cases hde : e = d
    · subst hde
      rw [if_pos rfl, if_pos hlt, if_pos rfl]
    · rw [if_neg fun h => hde (Grid.tileIndex_inj hd he h).symm, if_neg hde]
  · have hde : e ≠ d := fun h => he (h.symm ▸ hd)
    rw [if_neg he, if_neg he, if_neg hde]

end Board

namespace Parcel

variable {p : Parcel} {b : Board}

/-- The records of another parcel go behind all that is stored. -/
theorem StoredAt.withRecords {source target : Tile} (h : p.StoredAt b source target) (q : Parcel) :
    p.StoredAt (b.withRecords q) source target where
  levelCount := h.levelCount
  level position hp := by
    obtain ⟨l, d, index, hl, hd, hlevel, hdata⟩ := h.level position hp
    refine ⟨l, d, index, hl, hd, ?_, ?_⟩
    · rw [Board.withRecords, Array.getElem?_append_left (Array.getElem?_eq_some_iff.mp hlevel).1]
      exact hlevel
    · rw [Board.withRecords, Array.getElem?_append_left (Array.getElem?_eq_some_iff.mp hdata).1]
      exact hdata

/-- What is stored is a matter of the records, not of the tiles. -/
theorem StoredAt.withTile {source target : Tile} (h : p.StoredAt b source target) (d : Cell)
    (placed : Tile) : p.StoredAt (b.withTile d placed) source target :=
  ⟨h.levelCount, h.level⟩

/-- With the records of a consistent parcel, each of its tiles is stored in a
tile whose run starts as much later as there were levels before. -/
theorem storedAt_withRecords (hp : p.board.Consistent)
    (hlevels : b.levels.size + p.board.levels.size < UInt32.size)
    (hdata : b.data.size + p.board.data.size < UInt32.size) {source : Tile}
    (hsource : source ∈ p.board.tiles) :
    p.StoredAt (b.withRecords p) source
      ⟨source.levelCount, source.levelStart + b.levels.size.toUInt32⟩ where
  levelCount := rfl
  level position hposition := by
    obtain ⟨l, hl⟩ := hp.level hsource hposition
    obtain ⟨d, hd, -⟩ := hp.hasData source hsource position hposition l hl
    have hrun := hp.run_le source hsource
    have hindex := (Array.getElem?_eq_some_iff.mp hd).1
    -- Neither sum of an index and an offset wraps.
    have hstart : (source.levelStart + b.levels.size.toUInt32).toNat + position
        = b.levels.size + (source.first + position) := by
      rw [toNat_add_toUInt32 (by unfold Tile.first at hrun; omega), Tile.first, Nat.add_assoc]
    have hoffset := toNat_add_toUInt32 (Nat.lt_trans (Nat.add_lt_add_left hindex _) hdata)
    refine ⟨l, d, l.dataIndex + b.data.size.toUInt32, hl, hd, ?_, ?_⟩
    · rw [Board.withRecords, Tile.first, hstart, Array.getElem?_append_right (Nat.le_add_right _ _),
        Nat.add_sub_cancel_left, Array.getElem?_map, hl, Option.map_some, Level.placed_eq]
    · rw [Board.withRecords, hoffset, Array.getElem?_append_right (Nat.le_add_right _ _),
        Nat.add_sub_cancel_left, Array.getElem?_map, hd]
      rfl

/-! ### Putting down one tile -/

/-- What putting down a cell can do: nothing, if the cell does not land inside
the grid or has no levels; otherwise the tile that it lands on, which must be
empty, gets its run. -/
theorem placeTile_cases {levelOffset : UInt32} {b' : Board} {c : Cell}
    (h : p.placeTile levelOffset b c = .ok b') :
    (b' = b ∧ ∀ d, b.grid.contains d = true → ¬ p.LandsOn b.grid c d) ∨
      ∃ source d, p.board.tile? c = some source ∧ source.levelCount ≠ 0 ∧
        b.grid.contains d = true ∧ p.LandsOn b.grid c d ∧
        (b.tiles.getD (b.grid.tileIndex d) default).levelCount = 0 ∧
        b' = b.withTile d ⟨source.levelCount, source.levelStart + levelOffset⟩ := by
  unfold placeTile at h
  split at h
  case h_1 source d hsource hd =>
    obtain ⟨hin, hx, hz⟩ := landing?_eq_some_iff.mp hd
    split at h
    case isTrue hempty =>
      cases h
      -- The cell has no levels, and such a cell lands nowhere.
      refine .inl ⟨rfl, fun e _ hlands => ?_⟩
      obtain ⟨tile, htile, hne⟩ := hlands.occupied
      cases hsource.symm.trans htile
      exact hne hempty
    case isFalse hne =>
      dsimp only at h
      split at h
      case isTrue => cases h
      case isFalse hfree =>
        split at h
        case h_1 => cases h
        case h_2 =>
          cases h
          exact .inr ⟨source, d, hsource, hne, hin, ⟨⟨source, hsource, hne⟩, hx, hz⟩,
            by simpa using hfree, rfl⟩
  case h_2 hnot =>
    cases h
    -- The cell is not put anywhere, so it does not land inside the grid.
    refine .inl ⟨rfl, fun e he hlands => ?_⟩
    obtain ⟨source, hsource, -⟩ := hlands.occupied
    exact hnot source e hsource (landing?_eq_some_iff.mpr ⟨he, hlands.x, hlands.z⟩)

/-- Copying a parcel checks it, puts its records behind those of the board
and then puts down its cells row by row. -/
theorem copyInto_eq_ok_iff {b' : Board} :
    copyInto b p = .ok b' ↔ p.board.Consistent ∧
      p.board.grid.cells.foldlM (p.placeTile b.levels.size.toUInt32) (b.withRecords p)
        = .ok b' := by
  rw [← Board.defect?_eq_none_iff, copyInto]
  cases p.board.defect? with
  | none => simp [Board.withRecords]
  | some defect => simp

end Parcel

/-! ### The tiles that have been put down -/

/-- The state of stitching after some cells of some parcels were put down.
Those of them that land inside the grid are stored there, no two of them on
one tile, and there is nothing else on the board. -/
structure Filled (parcels : List Parcel) (done : Nat → Cell → Prop) (b : Board) : Prop where
  tileCount : b.tiles.size = b.grid.tileCount
  stored : ∀ {i : Nat} {p : Parcel} {c d : Cell}, done i c → parcels[i]? = some p →
    b.grid.contains d = true → p.LandsOn b.grid c d →
    ∃ source target, p.board.tile? c = some source ∧ b.tile? d = some target ∧
      p.StoredAt b source target
  unique : ∀ {i j : Nat} {p q : Parcel} {c e d : Cell}, done i c → done j e →
    parcels[i]? = some p → parcels[j]? = some q → b.grid.contains d = true →
    p.LandsOn b.grid c d → q.LandsOn b.grid e d → i = j ∧ c = e
  origin : ∀ {d : Cell} {target : Tile}, b.tile? d = some target → target.levelCount ≠ 0 →
    ∃ i p c, done i c ∧ parcels[i]? = some p ∧ p.LandsOn b.grid c d

namespace Filled

variable {parcels : List Parcel} {done : Nat → Cell → Prop} {b : Board}

/-- Which cells were put down matters only for those that land inside the
grid. -/
theorem congr {done' : Nat → Cell → Prop} (h : Filled parcels done b)
    (hsame : ∀ {i : Nat} {p : Parcel} {c d : Cell}, parcels[i]? = some p →
      b.grid.contains d = true → p.LandsOn b.grid c d → (done i c ↔ done' i c)) :
    Filled parcels done' b where
  tileCount := h.tileCount
  stored hdone hp hd hlands := h.stored ((hsame hp hd hlands).mpr hdone) hp hd hlands
  unique hdone hdone' hp hq hd hc he :=
    h.unique ((hsame hp hd hc).mpr hdone) ((hsame hq hd he).mpr hdone') hp hq hd hc he
  origin hd hne := by
    obtain ⟨i, p, c, hdone, hp, hlands⟩ := h.origin hd hne
    exact ⟨i, p, c, (hsame hp (Board.contains_of_tile? hd) hlands).mp hdone, hp, hlands⟩

/-- The records of one more parcel go behind those of the tiles that were put down. -/
theorem withRecords (h : Filled parcels done b) (q : Parcel) :
    Filled parcels done (b.withRecords q) where
  tileCount := h.tileCount
  stored hdone hp hd hlands := by
    obtain ⟨source, target, hsource, htarget, hstored⟩ := h.stored hdone hp hd hlands
    exact ⟨source, target, hsource, htarget, hstored.withRecords q⟩
  unique := h.unique
  origin := h.origin

/-- A cell that lands on a tile that has been taken makes the tile have
levels. -/
theorem levelCount_ne_zero (h : Filled parcels done b) {i : Nat} {p : Parcel} {c d : Cell}
    (hdone : done i c) (hp : parcels[i]? = some p) (hd : b.grid.contains d = true)
    (hlands : p.LandsOn b.grid c d) :
    (b.tiles.getD (b.grid.tileIndex d) default).levelCount ≠ 0 := by
  obtain ⟨source, target, hsource, htarget, hstored⟩ := h.stored hdone hp hd hlands
  obtain ⟨tile, htile, hne⟩ := hlands.occupied
  cases hsource.symm.trans htile
  rw [Board.tile?, if_pos hd] at htarget
  rw [Array.getD_eq_getD_getElem?, htarget, Option.getD_some, hstored.levelCount]
  exact hne

/-- Putting down one more cell of a parcel whose records are on the board. -/
theorem place (h : Filled parcels done b) {k : Nat} {p : Parcel} (hp : parcels[k]? = some p)
    {levelOffset : UInt32}
    (hrecords : ∀ source ∈ p.board.tiles,
      p.StoredAt b source ⟨source.levelCount, source.levelStart + levelOffset⟩)
    {b' : Board} {c : Cell} (hplace : p.placeTile levelOffset b c = .ok b') :
    Filled parcels (fun i e => done i e ∨ i = k ∧ e = c) b' := by
  rcases Parcel.placeTile_cases hplace with
    ⟨rfl, hnowhere⟩ | ⟨source, d, hsource, hne, hd, hlands, hfree, rfl⟩
  · refine h.congr fun hq hd hq' => (or_iff_left ?_).symm
    rintro ⟨rfl, rfl⟩
    cases hp.symm.trans hq
    exact hnowhere _ hd hq'
  · have htile := Board.tile?_withTile h.tileCount hd
      ⟨source.levelCount, source.levelStart + levelOffset⟩
    -- Nothing landed on the tile before, since it was empty.
    have hnone {i : Nat} {q : Parcel} {e : Cell} (hdone : done i e) (hq : parcels[i]? = some q) :
        ¬ q.LandsOn b.grid e d := fun hq' => h.levelCount_ne_zero hdone hq hd hq' hfree
    exact {
      tileCount := by rw [Board.withTile, Array.size_setIfInBounds]; exact h.tileCount
      stored := by
        rintro i q e f (hdone | ⟨rfl, rfl⟩) hq hf hq'
        · obtain ⟨source', target, hsource', htarget, hstored⟩ := h.stored hdone hq hf hq'
          have hother : f ≠ d := fun heq => hnone hdone hq (heq ▸ hq')
          exact ⟨source', target, hsource', by rw [htile, if_neg hother, htarget],
            hstored.withTile _ _⟩
        · cases hp.symm.trans hq
          refine ⟨source, _, hsource, by rw [htile, if_pos (hq'.inj hlands)], ?_⟩
          exact (hrecords source (Board.mem_tiles_of_tile? hsource)).withTile _ _
      unique := by
        rintro i j q r e f g (hdone | ⟨rfl, rfl⟩) (hdone' | ⟨rfl, rfl⟩) hq hr hg he hf
        · exact h.unique hdone hdone' hq hr hg he hf
        · cases hp.symm.trans hr
          exact absurd (hf.inj hlands ▸ he) (hnone hdone hq)
        · cases hp.symm.trans hq
          exact absurd (he.inj hlands ▸ hf) (hnone hdone' hr)
        · exact ⟨rfl, rfl⟩
      origin := by
        intro f target htarget hlevels
        rw [htile] at htarget
        split at htarget
        case isTrue heq => exact ⟨k, p, c, .inr ⟨rfl, rfl⟩, hp, heq ▸ hlands⟩
        case isFalse =>
          obtain ⟨i, q, e, hdone, hq, hq'⟩ := h.origin htarget hlevels
          exact ⟨i, q, e, .inl hdone, hq, hq'⟩ }

/-- Putting down the cells of a parcel whose records are on the board leaves
the records as they are. -/
theorem foldlM_place {k : Nat} {p : Parcel} (hp : parcels[k]? = some p) {levelOffset : UInt32}
    {cells : List Cell} {b' : Board} (h : Filled parcels done b)
    (hrecords : ∀ source ∈ p.board.tiles,
      p.StoredAt b source ⟨source.levelCount, source.levelStart + levelOffset⟩)
    (hfold : cells.foldlM (p.placeTile levelOffset) b = .ok b') :
    Filled parcels (fun i c => done i c ∨ i = k ∧ c ∈ cells) b' ∧
      ∃ tiles, b' = { b with tiles := tiles } := by
  induction cells generalizing b done with
  | nil =>
    cases hfold
    exact ⟨h.congr fun _ _ _ => by simp, _, rfl⟩
  | cons c cells ih =>
    rw [List.foldlM_cons, except_bind_eq_ok_iff] at hfold
    obtain ⟨mid, hmid, hrest⟩ := hfold
    -- One step changes the tiles at most, so the rest finds the same records.
    obtain ⟨tiles, rfl⟩ : ∃ tiles, mid = { b with tiles := tiles } := by
      rcases Parcel.placeTile_cases hmid with ⟨rfl, -⟩ | ⟨source, d, -, -, -, -, -, rfl⟩
      · exact ⟨_, rfl⟩
      · exact ⟨_, rfl⟩
    have hplaced := h.place hp hrecords hmid
    obtain ⟨hfilled, tiles', rfl⟩ := ih hplaced
      (fun source hsource => ⟨rfl, (hrecords source hsource).level⟩) hrest
    refine ⟨hfilled.congr fun _ _ _ => ?_, tiles', rfl⟩
    simp only [List.mem_cons, or_assoc, and_or_left]

/-- Copying one more parcel puts down all of its cells. -/
theorem copyInto {k : Nat} {p : Parcel} {b' : Board} (h : Filled parcels (fun i _ => i < k) b)
    (hp : parcels[k]? = some p) (hlevels : b.levels.size + p.board.levels.size < UInt32.size)
    (hdata : b.data.size + p.board.data.size < UInt32.size)
    (hcopy : Parcel.copyInto b p = .ok b') :
    Filled parcels (fun i _ => i < k + 1) b' ∧
      ∃ tiles, b' = { b.withRecords p with tiles := tiles } := by
  obtain ⟨hconsistent, hfold⟩ := Parcel.copyInto_eq_ok_iff.mp hcopy
  obtain ⟨hfilled, hrecords⟩ := (h.withRecords p).foldlM_place hp
    (fun source => Parcel.storedAt_withRecords hconsistent hlevels hdata) hfold
  refine ⟨hfilled.congr fun {i q c d} hq _ hlands => ?_, hrecords⟩
  constructor
  · rintro (hbefore | ⟨rfl, -⟩) <;> omega
  · intro hi
    rcases Nat.lt_succ_iff_lt_or_eq.mp hi with hbefore | rfl
    · exact .inl hbefore
    · -- A cell that lands anywhere is one of the parcel's.
      cases hp.symm.trans hq
      obtain ⟨tile, htile, -⟩ := hlands.occupied
      exact .inr ⟨rfl, Grid.mem_cells_iff.mpr (Board.contains_of_tile? htile)⟩

/-- Copying all parcels that are left puts down all cells of all parcels, and
keeps the board's payload length. -/
theorem foldlM_copyInto {k : Nat} {rest : List Parcel} {b' : Board}
    (h : Filled parcels (fun i _ => i < k) b) (hrest : parcels.drop k = rest)
    (hlevels : b.levels.size + (rest.map fun p => p.board.levels.size).sum < UInt32.size)
    (hdata : b.data.size + (rest.map fun p => p.board.data.size).sum < UInt32.size)
    (hfold : rest.foldlM Parcel.copyInto b = .ok b') :
    Filled parcels (fun _ _ => True) b' ∧ b'.payloadSize = b.payloadSize := by
  induction rest generalizing b k with
  | nil =>
    cases hfold
    refine ⟨h.congr fun {i _ _ _} hq _ _ => iff_of_true ?_ trivial, rfl⟩
    have hi := (List.getElem?_eq_some_iff.mp hq).1
    exact Nat.lt_of_lt_of_le hi (List.drop_eq_nil_iff.mp hrest)
  | cons p rest ih =>
    simp only [List.map_cons, List.sum_cons] at hlevels hdata
    rw [List.foldlM_cons, except_bind_eq_ok_iff] at hfold
    obtain ⟨mid, hmid, hfold⟩ := hfold
    -- The sums count what is on the board and what is still to come, so they stay the same.
    obtain ⟨hp, hdrop⟩ := getElem?_of_drop_eq_cons hrest
    obtain ⟨hfilled, tiles, rfl⟩ := h.copyInto hp (by omega) (by omega) hmid
    have hsize : (b.withRecords p).levels.size = b.levels.size + p.board.levels.size ∧
        (b.withRecords p).data.size = b.data.size + p.board.data.size := by
      simp [Board.withRecords]
    obtain ⟨hall, hpayload⟩ := ih hfilled hdrop (by dsimp only; omega) (by dsimp only; omega) hfold
    exact ⟨hall, hpayload⟩

end Filled

/-! ### Stitching -/

/-- The search for the longest payload ends with the length that it starts
from or with that of a parcel, and none of these is longer. -/
theorem foldl_longest (parcels : List Parcel) (start : UInt32) :
    let longest := parcels.foldl
      (fun longest p => if longest < p.board.payloadSize then p.board.payloadSize else longest)
      start
    start ≤ longest ∧ (∀ p ∈ parcels, p.board.payloadSize ≤ longest) ∧
      (longest = start ∨ ∃ p ∈ parcels, p.board.payloadSize = longest) := by
  induction parcels generalizing start with
  | nil => simp
  | cons p rest ih =>
    rw [List.foldl_cons]
    generalize hnext : (if start < p.board.payloadSize then p.board.payloadSize else start) = next
    -- The longer of the two is one of them and not below either, which is all that the rest
    -- needs.
    obtain ⟨hstart, hp, hfrom⟩ : start ≤ next ∧ p.board.payloadSize ≤ next ∧
        (next = start ∨ p.board.payloadSize = next) := by
      rw [← hnext]
      split
      case isTrue hlt => exact ⟨UInt32.le_of_lt hlt, UInt32.le_refl _, .inr rfl⟩
      case isFalse hle => exact ⟨UInt32.le_refl _, UInt32.not_lt.mp hle, .inl rfl⟩
    obtain ⟨hle, hall, hwhich⟩ := ih next
    refine ⟨UInt32.le_trans hstart hle, ?_, ?_⟩
    · intro q hq
      rcases List.mem_cons.mp hq with rfl | hq
      · exact UInt32.le_trans hp hle
      · exact hall q hq
    · rcases hwhich with heq | ⟨q, hq, heq⟩
      · rw [heq]
        exact hfrom.imp id fun h => ⟨p, List.mem_cons_self, h⟩
      · exact .inr ⟨q, List.mem_cons_of_mem p hq, heq⟩

/-- The longest payload is that of a parcel, and no parcel's is longer. -/
theorem longestPayload_isGreatest {parcels : List Parcel} (h : parcels ≠ []) :
    IsGreatest {size | ∃ p ∈ parcels, p.board.payloadSize = size} (longestPayload parcels) := by
  obtain ⟨-, hall, hwhich⟩ := foldl_longest parcels 0
  refine ⟨?_, fun size ⟨p, hp, heq⟩ => heq ▸ hall p hp⟩
  rcases hwhich with hzero | hparcel
  · -- If nothing is longer than the start, then all payloads are empty.
    obtain ⟨p, hp⟩ := List.exists_mem_of_ne_nil parcels h
    have hempty : p.board.payloadSize ≤ 0 := hzero ▸ hall p hp
    exact ⟨p, hp, (UInt32.le_antisymm hempty UInt32.zero_le).trans hzero.symm⟩
  · exact hparcel

/-- A board without levels is filled with nothing. -/
theorem Filled.blank (parcels : List Parcel) (g : Grid) (payloadSize : UInt32) :
    Filled parcels (fun i _ => i < 0)
      ⟨g, payloadSize, Array.replicate g.tileCount ⟨0, 0⟩, #[], #[]⟩ where
  tileCount := Array.size_replicate
  stored hdone := absurd hdone (Nat.not_lt_zero _)
  unique hdone := absurd hdone (Nat.not_lt_zero _)
  origin := by
    intro d target htarget hlevels
    have hmem := Array.mem_replicate.mp (Board.mem_tiles_of_tile? htarget)
    exact absurd (hmem.2 ▸ rfl) hlevels

/-- Stitching copies the parcels one by one to a blank board on their
destination, and checks what comes out. -/
theorem exists_of_stitch {parcels : List Parcel} {b : Board} (h : stitch parcels = .ok b) :
    ∃ g : Grid, Parcel.destination parcels = .ok g ∧ parcels.foldlM Parcel.copyInto
        ⟨g, longestPayload parcels, Array.replicate g.tileCount ⟨0, 0⟩, #[], #[]⟩ = .ok b ∧
      b.Consistent := by
  obtain ⟨g, hg, h⟩ := except_bind_eq_ok_iff.mp h
  obtain ⟨copied, hcopied, h⟩ := except_bind_eq_ok_iff.mp h
  split at h
  case h_1 board hparts =>
    cases h
    obtain ⟨rfl, hconsistent⟩ := Board.ofParts_eq_ok_iff.mp hparts
    exact ⟨g, hg, hcopied, hconsistent⟩
  case h_2 => cases h

/-- What stitching makes is filled with all cells of all parcels, and has
the longest payload. -/
theorem Filled.of_stitch {parcels : List Parcel} {b : Board} (h : stitch parcels = .ok b)
    (hlevels : (parcels.map fun p => p.board.levels.size).sum < UInt32.size)
    (hdata : (parcels.map fun p => p.board.data.size).sum < UInt32.size) :
    Filled parcels (fun _ _ => True) b ∧ b.payloadSize = longestPayload parcels := by
  obtain ⟨g, -, hcopied, -⟩ := exists_of_stitch h
  exact (Filled.blank parcels g (longestPayload parcels)).foldlM_copyInto rfl
    (by simpa using hlevels) (by simpa using hdata) hcopied

/-- The map that parcels are stitched to has the levels of the parcels and
no others. Its payloads have the greatest length among the parcels. Every
tile with levels has them from exactly one parcel and cell, which lands
there; and every cell of a parcel that lands inside the grid has its levels
there. -/
theorem stitch_copies {parcels : List Parcel} {b : Board} (h : stitch parcels = .ok b)
    (hlevels : (parcels.map fun p => p.board.levels.size).sum < UInt32.size)
    (hdata : (parcels.map fun p => p.board.data.size).sum < UInt32.size) :
    IsGreatest {size | ∃ p ∈ parcels, p.board.payloadSize = size} b.payloadSize ∧
      (∀ (d : Cell) (target : Tile), b.tile? d = some target → target.levelCount ≠ 0 →
        ∃ (i : Nat) (p : Parcel) (c : Cell) (source : Tile), parcels[i]? = some p ∧
          p.LandsOn b.grid c d ∧ p.board.tile? c = some source ∧ p.StoredAt b source target ∧
          ∀ (j : Nat) (q : Parcel) (e : Cell), parcels[j]? = some q → q.LandsOn b.grid e d →
            j = i ∧ e = c) ∧
      ∀ p ∈ parcels, ∀ (c d : Cell), p.LandsOn b.grid c d → b.grid.contains d = true →
        ∃ source target, p.board.tile? c = some source ∧ b.tile? d = some target ∧
          p.StoredAt b source target := by
  have hparcels : parcels ≠ [] := by
    rintro rfl
    cases h
  obtain ⟨hfilled, hpayload⟩ := Filled.of_stitch h hlevels hdata
  refine ⟨hpayload ▸ longestPayload_isGreatest hparcels, ?_, ?_⟩
  · intro d target htarget hne
    -- The cell that the tile has its levels from is stored where it lands: in this tile.
    obtain ⟨i, p, c, hdone, hp, hlands⟩ := hfilled.origin htarget hne
    have hd := Board.contains_of_tile? htarget
    obtain ⟨source, target', hsource, htarget', hstored⟩ := hfilled.stored hdone hp hd hlands
    cases htarget.symm.trans htarget'
    exact ⟨i, p, c, source, hp, hlands, hsource, hstored,
      fun j q e hq hlands' => hfilled.unique trivial hdone hq hp hd hlands' hlands⟩
  · intro p hp c d hlands hd
    obtain ⟨i, hi⟩ := List.mem_iff_getElem?.mp hp
    exact hfilled.stored trivial hi hd hlands

/-- A row of two tiles, of which the second has a floor. -/
def tileRow : Board where
  grid := ⟨2, 1, .one, .zero, .zero, .one⟩
  payloadSize := 1
  tiles := #[⟨0, 0⟩, ⟨1, 0⟩]
  levels := #[⟨.facingUp .one, .invalid, .one, .infinity, 0, 0⟩]
  data := #[⟨LevelHeader.plain, [7]⟩]

/-- The row turned by a right angle, one tile further on and one higher. -/
def turnedRow : Parcel := ⟨tileRow, ⟨.one, .one, .zero⟩, .quarter, 9⟩

/-- The row beside a tile with three floors. -/
def parcelPair : List Parcel := [⟨Board.threeFloors, .zero, .none, 5⟩, turnedRow]

/-- What the two are stitched to. -/
def parcelPairMap : Board := (stitch parcelPair).toOption.getD default

/-- The floor in the turned row is stored at the cell that it is turned to. -/
theorem parcelPair_stitch_copies :
    stitch parcelPair = .ok parcelPairMap ∧ turnedRow.LandsOn parcelPairMap.grid ⟨1, 0⟩ ⟨1, 1⟩ ∧
      IsGreatest {size | ∃ p ∈ parcelPair, p.board.payloadSize = size} parcelPairMap.payloadSize ∧
      ∃ source target, tileRow.tile? ⟨1, 0⟩ = some source ∧
        parcelPairMap.tile? ⟨1, 1⟩ = some target ∧
        turnedRow.StoredAt parcelPairMap source target := by
  have hb : stitch parcelPair = .ok parcelPairMap := by decide +kernel
  have hlands : turnedRow.LandsOn parcelPairMap.grid ⟨1, 0⟩ ⟨1, 1⟩ :=
    ⟨⟨⟨1, 0⟩, by decide +kernel, by decide⟩, by decide +kernel, by decide +kernel⟩
  obtain ⟨hpayload, -, hstored⟩ := stitch_copies hb (by decide +kernel) (by decide +kernel)
  exact ⟨hb, hlands, hpayload,
    hstored turnedRow (by simp [parcelPair]) ⟨1, 0⟩ ⟨1, 1⟩ hlands (by decide +kernel)⟩

end Battlemap
