import Battlemap.Proofs.Consistency

/-!
# `Battlemap.Proofs.Sharing`: which levels share their data

Nothing in the check of a map keeps the runs of two tiles apart, and nothing keeps
two level records from naming the same data. On a board with disjoint runs whose
level records name different data no two positions of tiles share their data
(`Board.DisjointRuns.unshared`): what happens to the data of a level then happens
to that level alone.
-/

set_option autoImplicit false

namespace Battlemap

/-- The runs of two tiles have no level in common. -/
def Tile.Apart (s t : Tile) : Prop :=
  ∀ p < s.count, ∀ q < t.count, s.first + p ≠ t.first + q

instance (s t : Tile) : Decidable (s.Apart t) :=
  inferInstanceAs (Decidable (∀ p < s.count, ∀ q < t.count, s.first + p ≠ t.first + q))

namespace Board

/-- No level belongs to the runs of two tiles. -/
def DisjointRuns (b : Board) : Prop :=
  ∀ (j k : Nat) (s t : Tile), b.tiles[j]? = some s → b.tiles[k]? = some t → j ≠ k → s.Apart t

/-- Different level records name different data. -/
def DistinctData (b : Board) : Prop :=
  ∀ (i j : Nat) (l m : Level), b.levels[i]? = some l → b.levels[j]? = some m →
    l.dataIndex = m.dataIndex → i = j

instance (b : Board) : Decidable b.DisjointRuns :=
  decidable_of_iff (∀ j, (hj : j < b.tiles.size) → ∀ k, (hk : k < b.tiles.size) → j ≠ k →
      b.tiles[j].Apart b.tiles[k]) <| by
    constructor
    · intro h j k s t hs ht
      obtain ⟨hj, rfl⟩ := Array.getElem?_eq_some_iff.mp hs
      obtain ⟨hk, rfl⟩ := Array.getElem?_eq_some_iff.mp ht
      exact h j hj k hk
    · intro h j hj k hk
      exact h j k _ _ (Array.getElem?_eq_getElem hj) (Array.getElem?_eq_getElem hk)

instance (b : Board) : Decidable b.DistinctData :=
  decidable_of_iff (∀ i, (hi : i < b.levels.size) → ∀ j, (hj : j < b.levels.size) →
      b.levels[i].dataIndex = b.levels[j].dataIndex → i = j) <| by
    constructor
    · intro h i j l m hl hm
      obtain ⟨hi, rfl⟩ := Array.getElem?_eq_some_iff.mp hl
      obtain ⟨hj, rfl⟩ := Array.getElem?_eq_some_iff.mp hm
      exact h i hi j hj
    · intro h i hi j hj
      exact h i j _ _ (Array.getElem?_eq_getElem hi) (Array.getElem?_eq_getElem hj)

/-- The place in the data array that belongs to a position of a tile. -/
def entryAt? (b : Board) (c : Cell) (position : Nat) : Option Nat := do
  let tile ← b.tile? c
  if position < tile.count then
    b.levels[tile.first + position]?.map fun level => level.dataIndex.toNat
  else none

/-- No two positions of tiles share their data. -/
def Unshared (b : Board) : Prop :=
  ∀ (c d : Cell) (p q i : Nat), b.entryAt? c p = some i → b.entryAt? d q = some i →
    c = d ∧ p = q

/-- A position has the place in the data that its level names. -/
theorem entryAt?_eq_some_iff {b : Board} {c : Cell} {position i : Nat} :
    b.entryAt? c position = some i ↔ ∃ tile level, b.tile? c = some tile ∧
      position < tile.count ∧ b.levels[tile.first + position]? = some level ∧
      level.dataIndex.toNat = i := by
  simp only [entryAt?, Option.bind_eq_bind, Option.bind_eq_some_iff, Option.ite_none_right_eq_some,
    Option.map_eq_some_iff]
  constructor
  · rintro ⟨tile, htile, hp, level, hlevel, hi⟩
    exact ⟨tile, level, htile, hp, hlevel, hi⟩
  · rintro ⟨tile, level, htile, hp, hlevel, hi⟩
    exact ⟨tile, htile, hp, level, hlevel, hi⟩

/-- On a board with disjoint runs and different data no two positions share their data. -/
theorem DisjointRuns.unshared {b : Board} (hruns : b.DisjointRuns) (hdata : b.DistinctData) :
    b.Unshared := by
  intro c d p q i hc hd
  obtain ⟨s, l, hs, hp, hl, rfl⟩ := entryAt?_eq_some_iff.mp hc
  obtain ⟨t, m, ht, hq, hm, hsame⟩ := entryAt?_eq_some_iff.mp hd
  have hplace : s.first + p = t.first + q := hdata _ _ l m hl hm (UInt32.toNat_inj.mp hsame.symm)
  obtain ⟨hcin, hs⟩ := tile?_eq_some_iff.mp hs
  obtain ⟨hdin, ht⟩ := tile?_eq_some_iff.mp ht
  -- In one tile the same level is at the same position, and two tiles have no level in common.
  by_cases hcell : b.grid.tileIndex c = b.grid.tileIndex d
  · have hcd : c = d := Grid.tileIndex_inj hcin hdin hcell
    subst hcd
    rw [hs] at ht
    cases ht
    exact ⟨rfl, by omega⟩
  · exact absurd hplace (hruns _ _ s t hs ht hcell p hp q hq)

end Board

end Battlemap
