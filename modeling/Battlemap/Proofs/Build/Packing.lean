import Battlemap.Build.Assembly
import Battlemap.Proofs.Consistency
import Battlemap.Proofs.MapFile.Reader

/-!
# `Battlemap.Proofs.Build.Packing`: where the levels of a tile are packed

Tiles are packed one after the other, and the levels of each in a row
behind those of all tiles before. `Packing.Holds` says so for the tiles
that have been packed, and packing one more tile keeps it (`Holds.addTile`).
The run in the record of a tile is then that of its levels (`Holds.run`).

`Builder.build_eq_ok_iff` takes a build apart. Arrays that are packed from
tiles make up a map (`Holds.consistent`), provided that all levels can be
counted in 32 bits and those of a tile in 16.
-/

set_option autoImplicit false

namespace Battlemap

namespace Packing

variable {solids : Array Solid} {payloadSize : Nat}

/-- The number of levels of the tiles before the one with a number. -/
def levelsBefore (tiles : List (List Layer)) (k : Nat) : Nat := (tiles.take k).flatten.length

/-- More tiles behind a tile do not change how many levels are before it. -/
theorem levelsBefore_append {tiles : List (List Layer)} {k : Nat} (h : k ≤ tiles.length)
    (more : List (List Layer)) : levelsBefore (tiles ++ more) k = levelsBefore tiles k := by
  rw [levelsBefore, List.take_append_of_le_length h, levelsBefore]

/-- Beyond the end of a list there is only the element that was put behind it. -/
theorem eq_of_getElem?_append_singleton {α : Type} {l : List α} {a b : α} {k : Nat}
    (hk : l.length ≤ k) (h : (l ++ [a])[k]? = some b) : k = l.length ∧ a = b := by
  rw [List.getElem?_append_right hk, List.getElem?_singleton] at h
  split at h
  case isTrue hzero => exact ⟨by omega, Option.some.inj h⟩
  case isFalse => cases h

/-- Packing some levels puts their records and their data behind the others. -/
theorem foldl_addLevel (layers : List Layer) (first : Nat) {p : Packing}
    (hp : p.levels.size = p.data.size) :
    (layers.zipIdx first).foldl (addLevel solids payloadSize) p =
      { p with
        levels := p.levels
          ++ ((layers.zipIdx p.levels.size).map fun (layer, index) => layer.record index).toArray
        data := p.data ++ ((layers.zipIdx first).map fun (layer, position) =>
          layer.levelData solids payloadSize position).toArray } := by
  induction layers generalizing first p with
  | nil => simp
  | cons layer layers ih =>
    rw [List.zipIdx_cons, List.foldl_cons, ih]
    · simp [addLevel, hp]
    · simp [addLevel, hp]

/-- The packed arrays hold the levels of some tiles. -/
structure Holds (solids : Array Solid) (payloadSize : Nat) (p : Packing)
    (tiles : List (List Layer)) : Prop where
  tilesSize : p.tiles.size = tiles.length
  levelsSize : p.levels.size = tiles.flatten.length
  dataSize : p.data.size = tiles.flatten.length
  tile : ∀ {k : Nat} {layers : List Layer}, tiles[k]? = some layers →
    p.tiles[k]? = some ⟨layers.length.toUInt32, (levelsBefore tiles k).toUInt32⟩
  level : ∀ {k i : Nat} {layers : List Layer} {layer : Layer}, tiles[k]? = some layers →
    layers[i]? = some layer →
    p.levels[levelsBefore tiles k + i]? = some (layer.record (levelsBefore tiles k + i)) ∧
      p.data[levelsBefore tiles k + i]? = some (layer.levelData solids payloadSize i)

/-- Before the first tile nothing has been packed. -/
theorem holds_empty : Holds solids payloadSize empty [] where
  tilesSize := rfl
  levelsSize := rfl
  dataSize := rfl
  tile h := by simp at h
  level h := by simp at h

namespace Holds

variable {p : Packing} {tiles : List (List Layer)}

/-- Packing one more tile keeps what was packed. -/
theorem addTile (h : Holds solids payloadSize p tiles) (layers : List Layer) :
    Holds solids payloadSize (p.addTile solids payloadSize layers) (tiles ++ [layers]) := by
  have hpacked : p.addTile solids payloadSize layers = _ :=
    foldl_addLevel layers 0 (p := { p with tiles := p.tiles.push _ })
      (h.levelsSize.trans h.dataSize.symm)
  have hbefore : levelsBefore (tiles ++ [layers]) tiles.length = tiles.flatten.length := by
    rw [levelsBefore_append (Nat.le_refl _), levelsBefore, List.take_length]
  rw [hpacked]
  -- A tile of before has its places in front, and the new one begins where they end.
  refine ⟨?_, ?_, ?_, ?_, ?_⟩
  · simp [h.tilesSize]
  · simp [h.levelsSize]
  · simp [h.dataSize]
  · intro k other hother
    rcases Nat.lt_or_ge k tiles.length with hk | hk
    · rw [List.getElem?_append_left hk] at hother
      rw [levelsBefore_append (Nat.le_of_lt hk), ← h.tile hother]
      rw [Array.getElem?_push, if_neg (by rw [h.tilesSize]; exact Nat.ne_of_lt hk)]
    · obtain ⟨rfl, rfl⟩ := eq_of_getElem?_append_singleton hk hother
      rw [hbefore, ← h.levelsSize, ← h.tilesSize]
      exact Array.getElem?_push_size
  · intro k i other layer hother hlayer
    rcases Nat.lt_or_ge k tiles.length with hk | hk
    · rw [List.getElem?_append_left hk] at hother
      obtain ⟨hlevel, hdata⟩ := h.level hother hlayer
      rw [levelsBefore_append (Nat.le_of_lt hk)]
      exact ⟨(Array.getElem?_append_left (Array.getElem?_eq_some_iff.mp hlevel).1).trans hlevel,
        (Array.getElem?_append_left (Array.getElem?_eq_some_iff.mp hdata).1).trans hdata⟩
    · obtain ⟨rfl, rfl⟩ := eq_of_getElem?_append_singleton hk hother
      rw [hbefore]
      constructor
      · rw [← h.levelsSize, Array.getElem?_append_right (Nat.le_add_right _ _),
          Nat.add_sub_cancel_left]
        simp [hlayer]
      · rw [← h.dataSize, Array.getElem?_append_right (Nat.le_add_right _ _),
          Nat.add_sub_cancel_left]
        simp [hlayer]

/-- Packing the tiles that are left packs all of them. -/
theorem foldl_addTile (h : Holds solids payloadSize p tiles) (rest : List (List Layer)) :
    Holds solids payloadSize (rest.foldl (Packing.addTile solids payloadSize) p)
      (tiles ++ rest) := by
  induction rest generalizing p tiles with
  | nil => simpa using h
  | cons layers rest ih => simpa using ih (h.addTile layers)

/-- Before a tile, and with it, there are no more levels than there are in all. -/
theorem levelsBefore_add_length_le {k : Nat} {layers : List Layer} (h : tiles[k]? = some layers) :
    levelsBefore tiles k + layers.length ≤ tiles.flatten.length := by
  obtain ⟨hk, rfl⟩ := List.getElem?_eq_some_iff.mp h
  have hsplit : tiles.flatten
      = (tiles.take k).flatten ++ (tiles[k] ++ (tiles.drop (k + 1)).flatten) := by
    rw [← List.flatten_cons, ← List.drop_eq_getElem_cons hk, ← List.flatten_append,
      List.take_append_drop]
  rw [levelsBefore, hsplit, List.length_append, List.length_append]
  omega

/-- A packed tile has its run where the levels of the tile are. -/
theorem run (h : Holds solids payloadSize p tiles) (hlevels : tiles.flatten.length < UInt32.size)
    {k : Nat} {tile : Tile} (hk : p.tiles[k]? = some tile) :
    ∃ layers, tiles[k]? = some layers ∧ tile.first = levelsBefore tiles k ∧
      tile.count = layers.length := by
  have hlt : k < tiles.length := h.tilesSize ▸ (Array.getElem?_eq_some_iff.mp hk).1
  have hlayers := List.getElem?_eq_getElem hlt
  cases (h.tile hlayers).symm.trans hk
  have hle := levelsBefore_add_length_le hlayers
  exact ⟨tiles[k], hlayers, UInt32.toNat_ofNat_of_lt' (by omega),
    UInt32.toNat_ofNat_of_lt' (by omega)⟩

/-- The arrays that are packed from the tiles of a grid make up a map. -/
theorem consistent (h : Holds solids payloadSize p tiles) {g : Grid} (size : UInt32)
    (hcount : tiles.length = g.tileCount)
    (hlayers : ∀ layers ∈ tiles, layers.length < UInt16.size)
    (hlevels : tiles.flatten.length < UInt32.size) :
    Board.Consistent ⟨g, size, p.tiles, p.levels, p.data⟩ := by
  refine ⟨h.tilesSize.trans hcount, fun tile hmem => ?_, fun tile hmem position hp level hl => ?_⟩
  · obtain ⟨k, hk⟩ := Array.mem_iff_getElem?.mp hmem
    obtain ⟨layers, hk, hfirst, hcount⟩ := h.run hlevels hk
    rw [hfirst, hcount, h.levelsSize]
    exact levelsBefore_add_length_le hk
  · obtain ⟨k, hk⟩ := Array.mem_iff_getElem?.mp hmem
    obtain ⟨layers, hk, hfirst, hcount⟩ := h.run hlevels hk
    rw [hcount] at hp
    obtain ⟨hlevel, hdata⟩ := h.level hk (List.getElem?_eq_getElem hp)
    rw [hfirst] at hl
    cases hlevel.symm.trans hl
    have hle := levelsBefore_add_length_le hk
    have hsize := hlayers layers (List.mem_of_getElem? hk)
    -- The record names data at its own place, where that of the level was packed.
    refine ⟨layers[position].levelData solids payloadSize position, ?_,
      UInt16.toNat_ofNat_of_lt' (Nat.lt_trans hp hsize)⟩
    rw [Layer.record, UInt32.toNat_ofNat_of_lt' (by omega)]
    exact hdata

end Holds

/-- All tiles are packed. -/
theorem holds_ofTiles (solids : Array Solid) (payloadSize : Nat) (tiles : List (List Layer)) :
    Holds solids payloadSize (ofTiles solids payloadSize tiles) tiles :=
  holds_empty.foldl_addTile tiles

end Packing

namespace Builder

/-- A build succeeds exactly if there is a grid and the packed arrays agree, and
then the board has these arrays. -/
theorem build_eq_ok_iff {builder : Builder} {b : Board} :
    builder.build = .ok b ↔ ∃ g, builder.grid = .ok g ∧ b.Consistent ∧
      let packing := Packing.ofTiles builder.solids builder.config.payloadSize.toNat
        (builder.layers g)
      b = ⟨g, builder.config.payloadSize, packing.tiles, packing.levels, packing.data⟩ := by
  rw [build, except_bind_eq_ok_iff]
  refine exists_congr fun g => and_congr_right fun _ => ?_
  rw [assemble]
  dsimp only
  split
  -- Assembling ends with the check of the arrays, which keeps them as they are.
  case h_1 board hparts =>
    obtain ⟨heq, hconsistent⟩ := Board.ofParts_eq_ok_iff.mp hparts
    constructor
    · rintro h
      cases h
      exact ⟨hconsistent, heq⟩
    · rintro ⟨-, rfl⟩
      rw [heq]
  case h_2 defect hparts =>
    refine iff_of_false (fun h => by cases h) fun ⟨hconsistent, heq⟩ => ?_
    subst heq
    rw [Board.ofParts_eq_ok_iff.mpr ⟨rfl, hconsistent⟩] at hparts
    cases hparts

end Builder

end Battlemap
