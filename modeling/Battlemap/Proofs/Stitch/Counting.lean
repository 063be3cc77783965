import Battlemap.Board.Statistics
import Battlemap.Proofs.Damage.Report
import Battlemap.Proofs.Stitch.Rebasing

/-!
# `Battlemap.Proofs.Stitch.Counting`: the counts of a map that was put together

The level counts of a map run over all level records, also those that no tile refers to.
The check of a map does not look at these, so they may name data that is not there; the
counts leave them out. A record that names data of its own parcel has the flags in the map
that it had in the parcel (`Joined.hasFlagIn_placed`), so it counts as before. A record
without data (a stray, `Parcel.straysFrom`) is moved like the others, and may then find data
of another parcel. The counts are the sums over the parcels and what strays find
(`Joined.levelsWith_eq`), and `stitch_counts_add_up` says when they are the sums alone.

`strayPair_counted_twice` is a pair of parcels where they are not: the first one has a level
record without data, which becomes a level with the data of the second.
-/

set_option autoImplicit false

namespace Battlemap

open Parcel

namespace Parcel

/-- Whether a level record of the parcel names data that is not there. -/
def IsStray (p : Parcel) (l : Level) : Prop := p.board.data.size ≤ l.dataIndex.toNat

instance (p : Parcel) (l : Level) : Decidable (p.IsStray l) :=
  inferInstanceAs (Decidable (_ ≤ _))

/-- The level records of the parcel without data, as they are copied. -/
def straysFrom (p : Parcel) (dataOffset : Nat) : List Level :=
  (p.board.levels.toList.filter fun l => p.IsStray l).map fun l =>
    l.placed p.rotation p.position.y dataOffset.toUInt32

end Parcel

namespace Joined

variable {parcels : List Parcel} {b : Board}

/-- A level record with data of its own parcel keeps the flags. -/
theorem hasFlagIn_placed (h : Joined parcels b) {i : Nat} {p : Parcel} (hp : parcels[i]? = some p)
    {l : Level} (hl : ¬ p.IsStray l) (flag : UInt32) :
    (l.placed p.rotation p.position.y (recordsBefore dataTotal parcels i).toUInt32).hasFlagIn
      b.data flag = l.hasFlagIn p.board.data flag := by
  have hindex : l.dataIndex.toNat < p.board.data.size := Nat.not_le.mp hl
  have hd := Array.getElem?_eq_getElem hindex
  rw [Level.hasFlagIn, Level.hasFlagIn, Level.placed, h.toNat_dataIndex hp hindex,
    h.rebased.entry hp hd, hd]
  rfl

/-- A stray level has no flags, since there is no data that it names. -/
theorem hasFlagIn_of_isStray {p : Parcel} {l : Level} (hl : p.IsStray l) (flag : UInt32) :
    l.hasFlagIn p.board.data flag = false := by
  rw [Level.hasFlagIn, Array.getElem?_eq_none hl, Option.any_none]

/-- The copied records of a parcel count as in the parcel, and the strays for what they
find. -/
theorem countP_levelsFrom (h : Joined parcels b) {i : Nat} {p : Parcel} (hp : parcels[i]? = some p)
    (flag : UInt32) :
    (p.levelsFrom (recordsBefore dataTotal parcels i)).countP (fun l => l.hasFlagIn b.data flag)
      = p.board.levelsWith flag + (p.straysFrom (recordsBefore dataTotal parcels i)).countP
          fun l => l.hasFlagIn b.data flag := by
  rw [levelsFrom, straysFrom, List.countP_map, List.countP_map, Board.levelsWith_eq,
    List.countP_eq_countP_filter_add _ _ fun l => !decide (p.IsStray l)]
  congr 1
  · -- Strays have no flags in the parcel, so they can be left out of its count.
    rw [List.countP_filter]
    refine List.countP_congr fun l _ => ?_
    by_cases hl : p.IsStray l
    · simp [hl, hasFlagIn_of_isStray hl]
    · simp [hl, h.hasFlagIn_placed hp hl]
  · simp

/-- The levels with a flag are those of the parcels and the strays that find one. -/
theorem levelsWith_eq (h : Joined parcels b) (flag : UInt32) :
    b.levelsWith flag = (parcels.map fun p => p.board.levelsWith flag).sum
      + ((withDataOffsets 0 parcels).map fun q =>
          (q.1.straysFrom q.2).countP fun l => l.hasFlagIn b.data flag).sum := by
  rw [Board.levelsWith_eq, h.rebased.levels, List.countP_flatMap]
  conv_rhs => rw [← map_fst_withDataOffsets 0 parcels, List.map_map, map_fst_withDataOffsets]
  rw [← List.sum_map_add]
  congr 1
  refine List.map_congr_left fun ⟨p, dataOffset⟩ hmem => ?_
  obtain ⟨i, hp, rfl⟩ := mem_withDataOffsets_iff.mp hmem
  exact h.countP_levelsFrom hp flag

/-- The counts add up exactly if no stray finds data with the flag. -/
theorem levelsWith_eq_sum_iff (h : Joined parcels b) (flag : UInt32) :
    b.levelsWith flag = (parcels.map fun p => p.board.levelsWith flag).sum ↔
      ∀ (i : Nat) (p : Parcel) (l : Level), parcels[i]? = some p → l ∈ p.board.levels →
        p.IsStray l → (l.placed p.rotation p.position.y
          (recordsBefore dataTotal parcels i).toUInt32).hasFlagIn b.data flag = false := by
  rw [h.levelsWith_eq, Nat.add_eq_left, List.sum_eq_zero_iff]
  simp only [List.forall_mem_map, List.countP_eq_zero, straysFrom, List.mem_filter,
    Array.mem_toList_iff, decide_eq_true_eq, and_imp, Bool.not_eq_true]
  constructor
  · intro hnone i p l hp hl hstray
    exact hnone _ (mem_withDataOffsets_iff.mpr ⟨i, hp, rfl⟩) l hl hstray
  · rintro hnone ⟨p, dataOffset⟩ hmem l hl hstray
    obtain ⟨i, hp, rfl⟩ := mem_withDataOffsets_iff.mp hmem
    exact hnone i p l hp hl hstray

end Joined

/-- What the counts of a map that was put together are. The level records add up, and no run
and no reference to data that is there overflows on the way. The levels with a flag add up
exactly if no level record without data finds data with the flag when it is moved; so, with
no such records at all, the counts of destructible, structural and destroyed levels add up. -/
theorem stitch_counts_add_up {parcels : List Parcel} {b : Board} (h : stitch parcels = .ok b)
    (hlevels : (parcels.map fun p => p.board.levels.size).sum < UInt32.size)
    (hdata : (parcels.map fun p => p.board.data.size).sum < UInt32.size) :
    (∀ (i : Nat) (p : Parcel), parcels[i]? = some p →
        (∀ source ∈ p.board.tiles,
          recordsBefore levelTotal parcels i + source.levelStart.toNat < UInt32.size) ∧
        ∀ l ∈ p.board.levels, ¬ p.IsStray l →
          recordsBefore dataTotal parcels i + l.dataIndex.toNat < UInt32.size) ∧
      b.statistics.levels = (parcels.map fun p => p.board.statistics.levels).sum ∧
      (∀ flag : UInt32,
        b.levelsWith flag = (parcels.map fun p => p.board.levelsWith flag).sum ↔
          ∀ (i : Nat) (p : Parcel) (l : Level), parcels[i]? = some p → l ∈ p.board.levels →
            p.IsStray l → (l.placed p.rotation p.position.y
              (recordsBefore dataTotal parcels i).toUInt32).hasFlagIn b.data flag = false) ∧
      ((∀ p ∈ parcels, ∀ l ∈ p.board.levels, ¬ p.IsStray l) →
        b.statistics.destructibleLevels
            = (parcels.map fun p => p.board.statistics.destructibleLevels).sum ∧
          b.statistics.structuralLevels
            = (parcels.map fun p => p.board.statistics.structuralLevels).sum ∧
          b.statistics.destroyedLevels
            = (parcels.map fun p => p.board.statistics.destroyedLevels).sum) := by
  have hjoined := Joined.of_stitch h hlevels hdata
  refine ⟨fun i p hp => ⟨fun source hsource => ?_, fun l _ hl => ?_⟩, hjoined.rebased.size_levels,
    hjoined.levelsWith_eq_sum_iff, fun hnone => ?_⟩
  · -- Both sums are references of the map, and so words.
    rw [← Tile.first, ← hjoined.toNat_levelStart hp hsource]
    exact UInt32.toNat_lt _
  · rw [← hjoined.toNat_dataIndex hp (Nat.not_le.mp hl)]
    exact UInt32.toNat_lt _
  · have hsum (flag : UInt32) :
        b.levelsWith flag = (parcels.map fun p => p.board.levelsWith flag).sum :=
      (hjoined.levelsWith_eq_sum_iff flag).mpr fun i p l hp hl hstray =>
        absurd hstray (hnone p (List.mem_of_getElem? hp) l hl)
    exact ⟨hsum destructibleFlag, hsum structuralFlag, hsum destroyedFlag⟩

/-- A tile without levels, and a level record without data. -/
def strayTile : Board where
  grid := ⟨1, 1, .one, .zero, .zero, .one⟩
  payloadSize := 0
  tiles := #[⟨0, 0⟩]
  levels := #[⟨.facingUp .zero, .invalid, .zero, .infinity, 0, 0⟩]
  data := #[]

/-- A tile with a level that can be destroyed and carries others. -/
def bearingTile : Board where
  grid := ⟨1, 1, .one, .zero, .zero, .one⟩
  payloadSize := 0
  tiles := #[⟨1, 0⟩]
  levels := #[⟨.facingUp .zero, .invalid, .zero, .infinity, 0, 0⟩]
  data := #[⟨{ LevelHeader.plain with
    flags := destructibleFlag ||| structuralFlag, kind := .wall, integrity := 2 }, []⟩]

/-- The tile with the stray behind the other: the stray finds nothing. -/
def strayLast : List Parcel :=
  [⟨bearingTile, .zero, .none, 1⟩, ⟨strayTile, ⟨.one, .zero, .zero⟩, .none, 2⟩]

/-- What the two are stitched to. -/
def strayLastMap : Board := (stitch strayLast).toOption.getD default

/-- A stray level in the last parcel names no data of another one, so the counts add up. -/
theorem strayLast_counts_add_up :
    stitch strayLast = .ok strayLastMap ∧ strayLastMap.statistics.levels = 2 ∧
      (∃ p ∈ strayLast, ∃ l ∈ p.board.levels, p.IsStray l) ∧
      strayLastMap.levelsWith destructibleFlag
        = (strayLast.map fun p => p.board.levelsWith destructibleFlag).sum := by
  have hb : stitch strayLast = .ok strayLastMap := by decide +kernel
  obtain ⟨-, hlevels, hcounts, -⟩ :=
    stitch_counts_add_up hb (by decide +kernel) (by decide +kernel)
  refine ⟨hb, hlevels, by decide, (hcounts _).mpr fun i p l hp hl hstray => ?_⟩
  rcases i with _ | _ | i
  · obtain rfl := Option.some.inj hp
    exact absurd hstray (by revert l; decide)
  · obtain rfl := Option.some.inj hp
    revert l
    decide +kernel
  · cases hp

/-- The tile with the stray in front of the other. -/
def strayPair : List Parcel :=
  [⟨strayTile, .zero, .none, 1⟩, ⟨bearingTile, ⟨.one, .zero, .zero⟩, .none, 2⟩]

/-- What the two are stitched to. -/
def strayPairMap : Board := (stitch strayPair).toOption.getD default

/-- The stray of the first parcel finds the data of the second, so the map has twice as many
destructible and structural levels as the parcels together. -/
theorem strayPair_counted_twice :
    (∀ p ∈ strayPair, Board.ofParts p.board.grid p.board.payloadSize p.board.tiles p.board.levels
      p.board.data = .ok p.board) ∧
      (strayPair.map fun p => p.board.levels.size).sum < UInt32.size ∧
      (strayPair.map fun p => p.board.data.size).sum < UInt32.size ∧
      stitch strayPair = .ok strayPairMap ∧
      strayPairMap.statistics.destructibleLevels = 2 ∧
      (strayPair.map fun p => p.board.statistics.destructibleLevels).sum = 1 ∧
      strayPairMap.statistics.structuralLevels = 2 ∧
      (strayPair.map fun p => p.board.statistics.structuralLevels).sum = 1 := by
  decide +kernel

end Battlemap
