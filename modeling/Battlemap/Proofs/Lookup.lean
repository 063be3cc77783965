import Battlemap.Board.Lookup
import Battlemap.Proofs.Consistency
import Mathlib.Order.Bounds.Basic

/-!
# `Battlemap.Proofs.Lookup`: reading a consistent board

`Board.levelsAt?` and `Board.lookup?` answer `none` in their outer option
if they come upon an index outside its array. On a consistent board they
always have an answer: the run of every tile lies inside the level array,
and they look at no level outside the run.

`Board.Fits` says which levels of a tile a query asks for, and
`Standing.Names` what an answer says of the level that it names. The scan
from the bottom up finds the least position that fits
(`findM?_range_cases`), so that is what answers, and the topmost level does
where none fits: `lookup_selects`.
-/

set_option autoImplicit false

namespace Battlemap

/-- A search whose tests all have answers finds what a search with these
answers finds. -/
theorem findM?_eq_some_find? {α : Type} {p : α → Option Bool} {q : α → Bool} {l : List α}
    (h : ∀ a ∈ l, p a = some (q a)) : l.findM? p = some (l.find? q) := by
  induction l with
  | nil => rfl
  | cons a l ih =>
    rw [List.findM?, h a List.mem_cons_self, List.find?_cons,
      ih fun a' ha' => h a' (List.mem_cons_of_mem a ha')]
    cases q a <;> rfl

/-- A search from the bottom up, in which every test has an answer, finds the
least number that passes, or nothing if none does. -/
theorem findM?_range_cases {p : Nat → Option Bool} {n : Nat}
    (h : ∀ i < n, ∃ answer, p i = some answer) :
    (∃ i, (List.range n).findM? p = some (some i) ∧ IsLeast {j | j < n ∧ p j = some true} i) ∨
      (List.range n).findM? p = some none ∧ ∀ j < n, p j ≠ some true := by
  have hsome : ∀ i ∈ List.range n, p i = some (p i == some true) := by
    intro i hi
    obtain ⟨answer, hanswer⟩ := h i (List.mem_range.mp hi)
    cases answer <;> simp [hanswer]
  rw [findM?_eq_some_find? hsome]
  cases hfind : (List.range n).find? fun i => p i == some true with
  | none =>
    refine .inr ⟨rfl, fun j hj => ?_⟩
    simpa using List.find?_eq_none.mp hfind j (List.mem_range.mpr hj)
  | some i =>
    obtain ⟨hi, hmem, hbefore⟩ := List.find?_range_eq_some.mp hfind
    refine .inl ⟨i, rfl, ⟨List.mem_range.mp hmem, by simpa using hi⟩, fun j hj => ?_⟩
    -- Whatever is tested before the find does not pass.
    exact Nat.le_of_not_lt fun hlt => by simpa [hj.2] using hbefore j hlt

namespace Board

variable {b : Board}

/-- The level at a position of a tile is one that a query asks for: it
stands, the mask selects its layer, and its floor at the point is within
the range of the point's height. -/
def Fits (b : Board) (q : Query) (c : Cell) (tile : Tile) (position : Nat) : Prop :=
  ∃ (level : Level) (data : LevelData), b.levels[tile.first + position]? = some level ∧
    b.data[level.dataIndex.toNat]? = some data ∧ data.header.isDestroyed = false ∧
    data.header.layerMask &&& q.mask ≠ 0 ∧
    q.point.y - q.range ≤ b.floorHeight c level q.point.x q.point.z ∧
    b.floorHeight c level q.point.x q.point.z ≤ q.point.y + q.range

/-- The test of a position finds the levels that fit the query. -/
theorem matchesAt?_eq_some_true_iff {q : Query} {c : Cell} {tile : Tile} {position : Nat} :
    b.matchesAt? q c tile position = some true ↔ b.Fits q c tile position := by
  unfold matchesAt? levelMatches Fits
  cases b.levels[tile.first + position]? with
  | none => simp
  | some level =>
    cases hdata : b.data[level.dataIndex.toNat]? with
    | none => simp [hdata]
    | some data => simp [hdata, Query.selects, Query.reaches, and_assoc]

end Board

/-- An answer names a level of a tile, by its position and by its index, and
gives its floor at the query's point. The level has data. -/
structure Standing.Names (s : Standing) (b : Board) (q : Board.Query) (c : Cell) (tile : Tile) :
    Prop where
  cell : s.cell = c
  level_lt : s.level < tile.count
  levelIndex : s.levelIndex = tile.first + s.level
  hasData : ∃ data, b.dataOf? s.levelIndex = some data
  floorHeight : ∃ level, b.levels[s.levelIndex]? = some level ∧
    s.floorHeight = b.floorHeight c level q.point.x q.point.z

namespace Board

variable {b : Board}

namespace Consistent

/-- The levels of every cell can be read. -/
theorem exists_levelsAt? (hb : b.Consistent) (c : Cell) :
    ∃ levels, b.levelsAt? c = some levels := by
  unfold levelsAt?
  split
  case h_1 tile htile => exact ⟨_, if_pos (hb.run_le tile (mem_tiles_of_tile? htile))⟩
  case h_2 => exact ⟨[], rfl⟩

/-- Every level of a tile can be tested. -/
theorem exists_matchesAt? (hb : b.Consistent) {tile : Tile} (ht : tile ∈ b.tiles) {position : Nat}
    (hp : position < tile.count) (q : Query) (c : Cell) :
    ∃ answer, b.matchesAt? q c tile position = some answer := by
  obtain ⟨level, hl⟩ := hb.level ht hp
  exact ⟨_, by rw [matchesAt?, hl, Option.map_some]⟩

/-- A level of a tile can be named. -/
theorem exists_names (hb : b.Consistent) {tile : Tile} (ht : tile ∈ b.tiles) {position : Nat}
    (hp : position < tile.count) (q : Query) (c : Cell) (matched : Bool) :
    ∃ s, b.standingAt? q c tile matched position = some s ∧ s.Names b q c tile ∧
      s.level = position ∧ s.matched = matched := by
  obtain ⟨level, hl⟩ := hb.level ht hp
  obtain ⟨data, hd, -⟩ := hb.hasData tile ht position hp level hl
  refine ⟨_, by rw [standingAt?, hl, Option.map_some], ?_, rfl, rfl⟩
  exact {
    cell := rfl
    level_lt := hp
    levelIndex := rfl
    hasData := ⟨data, by simp [dataOf?, hl, hd]⟩
    floorHeight := ⟨level, hl, rfl⟩ }

/-- Every point can be looked up. The answer is either that its tile has no
levels, or names the lowest level that fits, or the topmost one if none
does. -/
theorem lookup?_cases (hb : b.Consistent) (q : Query) {c : Cell}
    (hc : b.grid.cellAt q.point.x q.point.z = c) :
    (b.lookup? q = some none ∧ ∀ tile, b.tile? c = some tile → tile.count = 0) ∨
      ∃ tile s, b.tile? c = some tile ∧ tile.count ≠ 0 ∧ b.lookup? q = some (some s) ∧
        s.Names b q c tile ∧
        (s.matched = true ∧ IsLeast {p | p < tile.count ∧ b.Fits q c tile p} s.level ∨
          s.matched = false ∧ s.level = tile.count - 1 ∧
            ∀ p < tile.count, ¬ b.Fits q c tile p) := by
  unfold lookup?
  rw [hc]
  dsimp only
  split
  case h_1 hnone => exact .inl ⟨rfl, fun tile htile => by simp [hnone] at htile⟩
  case h_2 tile htile =>
    have ht := mem_tiles_of_tile? htile
    split
    case isTrue hcount =>
      refine .inl ⟨rfl, fun tile' htile' => ?_⟩
      rw [htile, Option.some.injEq] at htile'
      exact htile' ▸ hcount
    case isFalse hcount =>
      have hsearch := findM?_range_cases fun position hp => hb.exists_matchesAt? ht hp q c
      simp only [matchesAt?_eq_some_true_iff, ne_eq] at hsearch
      rcases hsearch with ⟨position, hfound, hleast⟩ | ⟨hfound, hnone⟩
      · obtain ⟨s, hs, hnames, rfl, hmatched⟩ := hb.exists_names ht hleast.1.1 q c true
        refine .inr ⟨tile, s, htile, hcount, ?_, hnames, .inl ⟨hmatched, hleast⟩⟩
        rw [hfound]
        exact congrArg (Option.map some) hs
      · -- The topmost level answers; there is one since the run is not empty.
        have htop : tile.count - 1 < tile.count := Nat.sub_one_lt hcount
        obtain ⟨s, hs, hnames, hlevel, hmatched⟩ := hb.exists_names ht htop q c false
        refine .inr ⟨tile, s, htile, hcount, ?_, hnames, .inr ⟨hmatched, hlevel, hnone⟩⟩
        rw [hfound]
        exact congrArg (Option.map some) hs

/-- On a consistent board every lookup has an answer, which may be that there is no level. -/
theorem exists_lookup? (hb : b.Consistent) (q : Query) : ∃ answer, b.lookup? q = some answer := by
  rcases hb.lookup?_cases q rfl with ⟨h, -⟩ | ⟨tile, s, -, -, h, -⟩
  · exact ⟨none, h⟩
  · exact ⟨some s, h⟩

end Consistent

/-- What a lookup answers on a map made of its parts. There is no answer
exactly if the point has no tile or its tile has no levels. Otherwise the
answer names a level of the tile: the lowest one that fits the query, if
one does, and else the topmost one. -/
theorem lookup_selects {grid : Grid} {payloadSize : UInt32} {tiles : Array Tile}
    {levels : Array Level} {data : Array LevelData}
    (hparts : ofParts grid payloadSize tiles levels data = .ok b) (q : Query) {c : Cell}
    (hc : b.grid.cellAt q.point.x q.point.z = c) :
    ∃ answer, b.lookup? q = some answer ∧
      (answer = none ↔
        b.tile? c = none ∨ ∃ tile, b.tile? c = some tile ∧ tile.levelCount = 0) ∧
      ∀ s, answer = some s → ∃ tile, b.tile? c = some tile ∧ s.Names b q c tile ∧
        ((∃ p < tile.count, b.Fits q c tile p) →
          s.matched = true ∧ IsLeast {p | p < tile.count ∧ b.Fits q c tile p} s.level) ∧
        ((¬ ∃ p < tile.count, b.Fits q c tile p) →
          s.matched = false ∧ s.level + 1 = tile.count) := by
  -- A run is empty in numbers as it is in the record.
  have hempty (tile : Tile) : tile.count = 0 ↔ tile.levelCount = 0 := UInt32.toNat_inj (b := 0)
  rcases (Consistent.of_ofParts hparts).lookup?_cases q hc with
    ⟨hnone, hlevels⟩ | ⟨tile, s, htile, hcount, hsome, hnames, hwhich⟩
  · refine ⟨none, hnone, iff_of_true rfl ?_, fun s hs => by cases hs⟩
    cases htile : b.tile? c with
    | none => exact .inl rfl
    | some tile => exact .inr ⟨tile, rfl, (hempty tile).mp (hlevels tile htile)⟩
  · refine ⟨some s, hsome, iff_of_false (Option.some_ne_none s) ?_, fun s' hs' => ?_⟩
    · rintro (hno | ⟨tile', htile', hzero⟩)
      · simp [htile] at hno
      · rw [htile, Option.some.injEq] at htile'
        exact hcount ((hempty tile).mpr (htile' ▸ hzero))
    · cases hs'
      refine ⟨tile, htile, hnames, ?_, ?_⟩
      · rintro ⟨p, hp, hfits⟩
        rcases hwhich with hmatch | ⟨-, -, hnofit⟩
        · exact hmatch
        · exact absurd hfits (hnofit p hp)
      · intro hnofit
        rcases hwhich with ⟨-, hleast⟩ | ⟨hmatched, hlevel, -⟩
        · exact absurd ⟨s.level, hleast.1⟩ hnofit
        · exact ⟨hmatched, by omega⟩

/-- A tile with three floors at the height zero, of which the lowest
collapsed. -/
def threeFloors : Board where
  grid := ⟨1, 1, .one, .zero, .zero, .infinity⟩
  payloadSize := 0
  tiles := #[⟨3, 0⟩]
  levels := #[floor 0, floor 1, floor 2]
  data := #[⟨{ LevelHeader.plain with flags := destroyedFlag, position := 0 }, []⟩,
    ⟨{ LevelHeader.plain with position := 1 }, []⟩, ⟨{ LevelHeader.plain with position := 2 }, []⟩]
where
  floor (index : UInt32) : Level := ⟨.facingUp .zero, .invalid, .zero, .infinity, index, 0⟩

/-- A query at the origin for all layers. -/
def originQuery : Query := ⟨.zero, .one, 0xffffffff⟩

/-- On three floors, of which the second one fits, the lookup selects the least one that does.
-/
theorem threeFloors_lookup_selects :
    threeFloors.Fits originQuery ⟨0, 0⟩ ⟨3, 0⟩ 1 ∧
      ∃ s, threeFloors.lookup? originQuery = some (some s) ∧ s.matched = true ∧
        IsLeast {p | p < 3 ∧ threeFloors.Fits originQuery ⟨0, 0⟩ ⟨3, 0⟩ p} s.level ∧
        s.levelIndex = s.level := by
  have hparts : ofParts threeFloors.grid threeFloors.payloadSize threeFloors.tiles
      threeFloors.levels threeFloors.data = .ok threeFloors := rfl
  have hcell : threeFloors.grid.cellAt originQuery.point.x originQuery.point.z = ⟨0, 0⟩ := by
    decide +kernel
  have hfits : threeFloors.Fits originQuery ⟨0, 0⟩ ⟨3, 0⟩ 1 :=
    ⟨_, _, rfl, rfl, by decide, by decide, by decide +kernel, by decide +kernel⟩
  refine ⟨hfits, ?_⟩
  obtain ⟨answer, hanswer, hnone, hsome⟩ := lookup_selects hparts originQuery hcell
  cases answer with
  | none => simp [tile?, threeFloors, Grid.contains, Grid.inBounds, Grid.tileIndex] at hnone
  | some s =>
    obtain ⟨tile, htile, hnames, hmatch, -⟩ := hsome s rfl
    obtain rfl : (⟨3, 0⟩ : Tile) = tile := Option.some.inj htile
    obtain ⟨hmatched, hleast⟩ := hmatch ⟨1, by decide, hfits⟩
    exact ⟨s, hanswer, hmatched, hleast, by simpa [Tile.first] using hnames.levelIndex⟩

end Board

end Battlemap
