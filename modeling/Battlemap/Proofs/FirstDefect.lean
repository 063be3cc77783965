import Battlemap.Proofs.Consistency

/-!
# `Battlemap.Proofs.FirstDefect`: which defect the check of a map reports

`Board.SoundBelow` says that nothing is wrong with a tile below a position: its run lies
inside the level array, and each level of the run below the position has data that records
where it stands. A board is consistent exactly if it has a tile for each cell and nothing is
wrong with any tile (`consistent_iff`).

`Board.TileDefect` and `Board.FirstDefect` say which defect comes first, without a scan: a
wrong tile count comes before everything else, an earlier tile before a later one, the run of a
tile before its levels, and a lower level before a higher one. Each defect carries what is
wrong, and where.

The check scans in the same order, so the first thing that it finds is the first defect
(`tileDefect?_eq_some_iff`, `defect?_eq_some_iff`). With that, `ofParts_accepts_or_reports`
says of any arrays whatever whether they make up a map, and if not, what is reported. All sums
and products on the way have their true value in 64 bits.
-/

set_option autoImplicit false

namespace Battlemap

/-- What a search finds is what its test says of the first element that it does not pass over. -/
theorem findSome?_eq_some_iff_getElem? {α β : Type} {f : α → Option β} {l : List α} {b : β} :
    l.findSome? f = some b ↔ ∃ (i : Nat) (a : α), l[i]? = some a ∧ f a = some b ∧
      ∀ j < i, ∀ a', l[j]? = some a' → f a' = none := by
  rw [List.findSome?_eq_some_iff]
  constructor
  · rintro ⟨before, a, after, rfl, ha, hbefore⟩
    refine ⟨before.length, a, by simp, ha, fun j hj a' ha' => hbefore a' ?_⟩
    rw [List.getElem?_append_left hj] at ha'
    exact List.mem_of_getElem? ha'
  · rintro ⟨i, a, hi, ha, hbefore⟩
    obtain ⟨hlt, rfl⟩ := List.getElem?_eq_some_iff.mp hi
    refine ⟨l.take i, l[i], l.drop (i + 1), ?_, ha, fun a' ha' => ?_⟩
    · rw [← List.drop_eq_getElem_cons hlt, List.take_append_drop]
    · obtain ⟨j, hj, rfl⟩ := List.mem_take_iff_getElem.mp ha'
      exact hbefore j (by omega) _ (List.getElem?_eq_getElem _)

/-- The first number with a value is found: it has one, and no lesser number has. -/
theorem findSome?_range_eq_some_iff {β : Type} {f : Nat → Option β} {n : Nat} {b : β} :
    (List.range n).findSome? f = some b ↔
      ∃ i < n, f i = some b ∧ ∀ j < i, f j = none := by
  rw [findSome?_eq_some_iff_getElem?]
  simp only [List.getElem?_eq_some_iff, List.length_range, List.getElem_range]
  constructor
  · rintro ⟨i, _, ⟨hi, rfl⟩, hb, hbefore⟩
    exact ⟨i, hi, hb, fun j hj => hbefore j hj j ⟨Nat.lt_trans hj hi, rfl⟩⟩
  · rintro ⟨i, hi, hb, hbefore⟩
    refine ⟨i, i, ⟨hi, rfl⟩, hb, ?_⟩
    rintro j hj _ ⟨-, rfl⟩
    exact hbefore j hj

namespace Board

/-- Nothing is wrong with a tile below a position: its run lies inside the level array, and the
levels of the run below the position have data that records where they stand. -/
structure SoundBelow (b : Board) (tile : Tile) (n : Nat) : Prop where
  run_le : tile.first + tile.count ≤ b.levels.size
  level : ∀ p < n, ∃ level, b.levels[tile.first + p]? = some level ∧ b.HasData level p

/-- The defect is the first one of a tile with the given index. -/
inductive TileDefect (b : Board) (index : Nat) (tile : Tile) : Defect → Prop
  /-- The run leaves the level array. -/
  | levelRange (h : b.levels.size < tile.first + tile.count) :
    TileDefect b index tile (.levelRange index tile.levelStart tile.levelCount b.levels.size)
  /-- The lowest level with a defect has no data. -/
  | dataIndex {p : Nat} {level : Level} (hp : p < tile.count) (hbelow : b.SoundBelow tile p)
    (hlevel : b.levels[tile.first + p]? = some level)
    (h : b.data.size ≤ level.dataIndex.toNat) :
    TileDefect b index tile (.dataIndex (tile.first + p) level.dataIndex)
  /-- The lowest level with a defect has data that records another position. -/
  | levelPosition {p : Nat} {level : Level} {data : LevelData} (hp : p < tile.count)
    (hbelow : b.SoundBelow tile p) (hlevel : b.levels[tile.first + p]? = some level)
    (hdata : b.data[level.dataIndex.toNat]? = some data) (h : data.header.position.toNat ≠ p) :
    TileDefect b index tile (.levelPosition index p data.header.position)

/-- The defect is the first one of the board. -/
inductive FirstDefect (b : Board) : Defect → Prop
  /-- There are too few or too many tiles. -/
  | tileCount (h : b.tiles.size ≠ b.grid.tileCount) :
    FirstDefect b (.tileCount b.grid.tileCount b.tiles.size)
  /-- It is the first one of the earliest tile with a defect. -/
  | tile {i : Nat} {tile : Tile} {d : Defect} (hcount : b.tiles.size = b.grid.tileCount)
    (htile : b.tiles[i]? = some tile)
    (hearlier : ∀ j < i, ∀ earlier, b.tiles[j]? = some earlier →
      b.SoundBelow earlier earlier.count)
    (hd : b.TileDefect i tile d) : FirstDefect b d

variable {b : Board}

/-- A board is consistent if it has the right number of tiles and all of them are sound. -/
theorem consistent_iff : b.Consistent ↔
    b.tiles.size = b.grid.tileCount ∧ ∀ tile ∈ b.tiles, b.SoundBelow tile tile.count := by
  constructor
  · intro hb
    refine ⟨hb.tileCount, fun tile ht => ⟨hb.run_le tile ht, fun p hp => ?_⟩⟩
    obtain ⟨level, hlevel⟩ := hb.level ht hp
    exact ⟨level, hlevel, hb.hasData tile ht p hp level hlevel⟩
  · rintro ⟨hcount, hsound⟩
    refine ⟨hcount, fun tile ht => (hsound tile ht).run_le, fun tile ht p hp level hlevel => ?_⟩
    obtain ⟨level', hlevel', hdata⟩ := (hsound tile ht).level p hp
    rw [hlevel] at hlevel'
    cases hlevel'
    exact hdata

/-! ### The scan of a tile -/

/-- Below a position of a run that lies inside the level array, the scan passes over every level
exactly if nothing is wrong. -/
theorem soundBelow_iff_levelDefect? (index : Nat) {n : Nat} {tile : Tile} (hn : n ≤ tile.count)
    (hrun : tile.first + tile.count ≤ b.levels.size) :
    b.SoundBelow tile n ↔ ∀ p < n, b.levelDefect? index tile p = none := by
  have hlevel (p : Nat) (hp : p < n) : ∃ level, b.levels[tile.first + p]? = some level :=
    ⟨_, Array.getElem?_eq_getElem (by omega : tile.first + p < b.levels.size)⟩
  constructor
  · intro h p hp
    rw [levelDefect?_eq_none_iff]
    intro level hl
    obtain ⟨level', hl', hdata⟩ := h.level p hp
    rw [hl] at hl'
    cases hl'
    exact hdata
  · intro h
    refine ⟨hrun, fun p hp => ?_⟩
    obtain ⟨level, hl⟩ := hlevel p hp
    exact ⟨level, hl, levelDefect?_eq_none_iff.mp (h p hp) level hl⟩

/-- A tile without a defect is sound up to its count. -/
theorem tileDefect?_eq_none_iff_soundBelow {index : Nat} {tile : Tile} :
    b.tileDefect? index tile = none ↔ b.SoundBelow tile tile.count := by
  unfold tileDefect?
  split
  case isTrue hlt =>
    exact ⟨nofun, fun h => absurd h.run_le (Nat.not_le.mpr hlt)⟩
  case isFalse hle =>
    rw [soundBelow_iff_levelDefect? index (Nat.le_refl _) (Nat.not_lt.mp hle)]
    simp only [List.findSome?_eq_none_iff, List.mem_range]

/-- What is wrong with one level: its data is missing, or records another position. -/
theorem levelDefect?_eq_some_iff {index p : Nat} {tile : Tile} {d : Defect} :
    b.levelDefect? index tile p = some d ↔ ∃ level, b.levels[tile.first + p]? = some level ∧
      (b.data.size ≤ level.dataIndex.toNat ∧ d = .dataIndex (tile.first + p) level.dataIndex ∨
        ∃ data, b.data[level.dataIndex.toNat]? = some data ∧ data.header.position.toNat ≠ p ∧
          d = .levelPosition index p data.header.position) := by
  unfold levelDefect?
  cases hlevel : b.levels[tile.first + p]? with
  | none => simp
  | some level =>
    cases hdata : b.data[level.dataIndex.toNat]? with
    | none =>
      have hsize : b.data.size ≤ level.dataIndex.toNat := Array.getElem?_eq_none_iff.mp hdata
      simp [hsize, eq_comm]
    | some data =>
      have hsize : ¬ b.data.size ≤ level.dataIndex.toNat :=
        Nat.not_le.mpr (Array.getElem?_eq_some_iff.mp hdata).1
      simp [hdata, hsize, eq_comm]

/-- The scan of a tile finds its first defect. -/
theorem tileDefect?_eq_some_iff {index : Nat} {tile : Tile} {d : Defect} :
    b.tileDefect? index tile = some d ↔ b.TileDefect index tile d := by
  unfold tileDefect?
  split
  case isTrue hlt =>
    constructor
    · intro h
      cases h
      exact .levelRange hlt
    · intro h
      cases h with
      | levelRange _ => rfl
      | dataIndex _ hbelow _ _ => exact absurd hbelow.run_le (Nat.not_le.mpr hlt)
      | levelPosition _ hbelow _ _ _ => exact absurd hbelow.run_le (Nat.not_le.mpr hlt)
  case isFalse hle =>
    have hrun := Nat.not_lt.mp hle
    -- The positions are scanned from the bottom, so those before the one found are sound.
    have hscan : (List.range tile.count).findSome? (b.levelDefect? index tile) = some d ↔
        ∃ p < tile.count, b.levelDefect? index tile p = some d ∧ b.SoundBelow tile p := by
      rw [findSome?_range_eq_some_iff]
      refine exists_congr fun p => and_congr_right fun hp => and_congr_right fun _ => ?_
      exact (soundBelow_iff_levelDefect? _ (Nat.le_of_lt hp) hrun).symm
    rw [hscan]
    constructor
    · rintro ⟨p, hp, hd, hbelow⟩
      obtain ⟨level, hlevel, ⟨hsize, rfl⟩ | ⟨data, hdata, hne, rfl⟩⟩ :=
        levelDefect?_eq_some_iff.mp hd
      · exact .dataIndex hp hbelow hlevel hsize
      · exact .levelPosition hp hbelow hlevel hdata hne
    · intro h
      cases h with
      | levelRange h => exact absurd h hle
      | @dataIndex p level hp hbelow hlevel h =>
        exact ⟨p, hp, levelDefect?_eq_some_iff.mpr ⟨level, hlevel, .inl ⟨h, rfl⟩⟩, hbelow⟩
      | @levelPosition p level data hp hbelow hlevel hdata h =>
        exact ⟨p, hp, levelDefect?_eq_some_iff.mpr
          ⟨level, hlevel, .inr ⟨data, hdata, h, rfl⟩⟩, hbelow⟩

/-! ### The scan of a board -/

/-- The check finds the first defect of the board. -/
theorem defect?_eq_some_iff {d : Defect} : b.defect? = some d ↔ b.FirstDefect d := by
  unfold defect?
  split
  case isFalse hne =>
    constructor
    · intro h
      cases h
      exact .tileCount hne
    · intro h
      cases h with
      | tileCount _ => rfl
      | tile hcount _ _ _ => exact absurd hcount hne
  case isTrue heq =>
    -- The search stops at the first tile with a defect, and the tiles before it are sound.
    rw [findSome?_eq_some_iff_getElem?]
    simp only [List.getElem?_zipIdx, Array.getElem?_toList, Nat.zero_add,
      Option.map_eq_some_iff]
    constructor
    · rintro ⟨i, _, ⟨tile, htile, rfl⟩, hd, hearlier⟩
      refine .tile heq htile (fun j hj earlier hj' => ?_) (tileDefect?_eq_some_iff.mp hd)
      exact tileDefect?_eq_none_iff_soundBelow.mp (hearlier j hj _ ⟨earlier, hj', rfl⟩)
    · intro h
      cases h with
      | tileCount hne => exact absurd heq hne
      | @tile i tile _ _ htile hearlier hd =>
        refine ⟨i, _, ⟨tile, htile, rfl⟩, tileDefect?_eq_some_iff.mpr hd, ?_⟩
        rintro j hj _ ⟨earlier, hj', rfl⟩
        exact tileDefect?_eq_none_iff_soundBelow.mpr (hearlier j hj earlier hj')

/-- What is reported of parts is their first defect. -/
theorem ofParts_eq_error_iff {g : Grid} {payloadSize : UInt32} {tiles : Array Tile}
    {levels : Array Level} {data : Array LevelData} {d : Defect} :
    ofParts g payloadSize tiles levels data = .error d ↔
      FirstDefect ⟨g, payloadSize, tiles, levels, data⟩ d := by
  rw [← defect?_eq_some_iff]
  unfold ofParts
  dsimp only
  split
  case h_1 found hfound => simp [hfound]
  case h_2 hnone => simp [hnone]

/-! ### Sums in machine words -/

/-- The number of tiles fits into 64 bits. -/
theorem toNat_tileCount (g : Grid) :
    (g.width.toUInt64 * g.height.toUInt64).toNat = g.tileCount := by
  have hw := g.width.toNat_lt
  have hh := g.height.toNat_lt
  rw [UInt64.toNat_mul, UInt32.toNat_toUInt64, UInt32.toNat_toUInt64, Grid.tileCount]
  refine Nat.mod_eq_of_lt ?_
  calc g.width.toNat * g.height.toNat
      ≤ (2 ^ 32 - 1) * (2 ^ 32 - 1) := Nat.mul_le_mul (by omega) (by omega)
    _ < 2 ^ 64 := by decide

/-- The sum of two words of 32 bits fits into 64. -/
theorem toNat_toUInt64_add (m n : UInt32) :
    (m.toUInt64 + n.toUInt64).toNat = m.toNat + n.toNat := by
  have hm := m.toNat_lt
  have hn := n.toNat_lt
  rw [UInt64.toNat_add, UInt32.toNat_toUInt64, UInt32.toNat_toUInt64]
  exact Nat.mod_eq_of_lt (by omega)

/-! ### Which arrays make up a map -/

/-- Arrays make up a map exactly if there is a tile for each cell and nothing is wrong with any
of them; then the map has these arrays. Otherwise the first defect is reported. What the check
computes on the way, the number of cells and the places in the level array, fits into 64 bits. -/
theorem ofParts_accepts_or_reports (g : Grid) (payloadSize : UInt32) (tiles : Array Tile)
    (levels : Array Level) (data : Array LevelData) :
    let given : Board := ⟨g, payloadSize, tiles, levels, data⟩
    let made := ofParts g payloadSize tiles levels data
    (∀ b, made = .ok b ↔ b = given ∧ tiles.size = g.width.toNat * g.height.toNat ∧
      ∀ tile ∈ tiles, given.SoundBelow tile tile.count) ∧
    (∀ d, made = .error d ↔ given.FirstDefect d) ∧
    (g.width.toUInt64 * g.height.toUInt64).toNat = g.width.toNat * g.height.toNat ∧
    ∀ (tile : Tile) (position : UInt32),
      (tile.levelStart.toUInt64 + tile.levelCount.toUInt64).toNat = tile.first + tile.count ∧
      (tile.levelStart.toUInt64 + position.toUInt64).toNat = tile.first + position.toNat := by
  dsimp only
  refine ⟨fun b => ?_, fun d => ofParts_eq_error_iff, toNat_tileCount g, fun tile p => ?_⟩
  · rw [ofParts_eq_ok_iff]
    refine and_congr_right ?_
    rintro rfl
    exact consistent_iff
  · exact ⟨toNat_toUInt64_add .., toNat_toUInt64_add ..⟩

/-- The run of the first tile is reported: before its level, which has no data, and before the run
of the second tile, which is out of range too. -/
example : ofParts ⟨2, 1, .one, .zero, .zero, .one⟩ 0 #[⟨2, 0⟩, ⟨1, 7⟩]
    #[⟨.facingUp .zero, .invalid, .zero, .infinity, 5, 0⟩] #[]
    = .error (.levelRange 0 0 2 1) := by
  decide

end Board

end Battlemap
