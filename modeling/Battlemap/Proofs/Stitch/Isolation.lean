import Battlemap.Proofs.Damage.Endurance
import Battlemap.Proofs.Damage.Report
import Battlemap.Proofs.Stitch.Rebasing

/-!
# `Battlemap.Proofs.Stitch.Isolation`: parcels do not share anything with each other

A position of a tile refers to a level record (`Board.recordAt?`), and through it to an
entry of the data (`Board.entryAt?`). Nothing in the check of a map keeps two positions
from referring to the same place, so parcels may bring shared places along. Stitching adds
none: both references of a position are those of the position that it comes from, moved by
the records before the parcel (`Joined.recordAt?_eq`, `Joined.entryAt?_eq`), and the
stretches of two parcels do not meet. So positions share a place exactly if they come from
one parcel in which they shared it (`Joined.shared_iff`).

Where no position shares data with another, an event changes the data of a position exactly
if its report names that position (`Board.Consistent.changed_iff_struck`). For parcels with
this property `stitch_isolates` concludes it for the map, after any number of events.
-/

set_option autoImplicit false

namespace Battlemap

namespace Board

/-! ### References of positions -/

/-- The place in the level array that belongs to a position of a tile. -/
def recordAt? (b : Board) (c : Cell) (position : Nat) : Option Nat := do
  let tile ← b.tile? c
  if position < tile.count then some (tile.first + position) else none

/-- A position below the number of levels of its tile has a record in the run of the tile. -/
theorem recordAt?_of_tile? {b : Board} {c : Cell} {tile : Tile} (h : b.tile? c = some tile)
    (position : Nat) :
    b.recordAt? c position
      = if position < tile.count then some (tile.first + position) else none := by
  rw [recordAt?, h]
  rfl

/-- A position below the number of levels of its tile has the entry that its level names. -/
theorem entryAt?_of_tile? {b : Board} {c : Cell} {tile : Tile} (h : b.tile? c = some tile)
    (position : Nat) :
    b.entryAt? c position = if position < tile.count then
      b.levels[tile.first + position]?.map fun level => level.dataIndex.toNat else none := by
  rw [entryAt?, h]
  rfl

/-- The record of a position is found from the tile of its cell. -/
theorem recordAt?_eq_some_iff {b : Board} {c : Cell} {position i : Nat} :
    b.recordAt? c position = some i ↔ ∃ tile, b.tile? c = some tile ∧ position < tile.count ∧
      tile.first + position = i := by
  simp only [recordAt?, Option.bind_eq_bind, Option.bind_eq_some_iff,
    Option.ite_none_right_eq_some, Option.some.injEq]

/-- Two positions refer to one place. -/
def Shares (at? : Board → Cell → Nat → Option Nat) (b : Board) (c : Cell) (x : Nat) (d : Cell)
    (y : Nat) : Prop :=
  ∃ i, at? b c x = some i ∧ at? b d y = some i

variable {b : Board}

/-- On a board whose levels do not share data, an event changes the data of a position
exactly if it reports the position. -/
theorem Consistent.changed_iff_struck (hb : b.Consistent) (hu : b.Unshared) (damage : Box) :
    ∃ after report, b.damage? damage = some ({ b with data := after }, report) ∧
      ∀ (c : Cell) (x i : Nat), b.entryAt? c x = some i →
        (after[i]? ≠ b.data[i]? ↔ ∃ k ∈ report.strikes, k.cell = c ∧ k.level = x) := by
  obtain ⟨visits, final, h⟩ := hb.exists_outcome hu damage
  refine ⟨final.data, _, h.damage?_eq, fun c x i hi => ?_⟩
  rw [h.changed_iff hu]
  constructor
  · rintro ⟨k, hk, hplace⟩
    exact ⟨k, hk, hu _ _ _ _ i hplace hi⟩
  · rintro ⟨k, hk, rfl, rfl⟩
    exact ⟨k, hk, hi⟩

end Board

open Board Parcel

/-- Two positions of a map come from one of the parcels, in which they refer to one place. -/
def SharedInParcel (parcels : List Parcel) (g : Grid) (at? : Board → Cell → Nat → Option Nat)
    (d : Cell) (x : Nat) (e : Cell) (y : Nat) : Prop :=
  ∃ (i : Nat) (p : Parcel) (c c' : Cell), parcels[i]? = some p ∧
    (p.LandsOn g c d ∧ g.contains d = true) ∧ (p.LandsOn g c' e ∧ g.contains e = true) ∧
    Shares at? p.board c x c' y

namespace Joined

variable {parcels : List Parcel} {b : Board} {i : Nat} {p : Parcel} {c d : Cell}

/-! ### References of a parcel, moved -/

/-- A position that comes from a parcel has the level record that it had there. -/
theorem recordAt?_eq (h : Joined parcels b) (hp : parcels[i]? = some p)
    (hlands : p.LandsOn b.grid c d) (hd : b.grid.contains d = true) (x : Nat) :
    b.recordAt? d x
      = (p.board.recordAt? c x).map fun m => recordsBefore levelTotal parcels i + m := by
  obtain ⟨source, target, hsource, htarget, hcount, hfirst⟩ := h.tile hp hlands hd
  rw [recordAt?_of_tile? htarget, recordAt?_of_tile? hsource, hcount, hfirst]
  by_cases hx : x < source.count
  · rw [if_pos hx, if_pos hx, Option.map_some, Nat.add_assoc]
  · rw [if_neg hx, if_neg hx, Option.map_none]

/-- A position that comes from a parcel has the entry of the data that it had there. -/
theorem entryAt?_eq (h : Joined parcels b) (hp : parcels[i]? = some p)
    (hlands : p.LandsOn b.grid c d) (hd : b.grid.contains d = true) (x : Nat) :
    b.entryAt? d x
      = (p.board.entryAt? c x).map fun m => recordsBefore dataTotal parcels i + m := by
  obtain ⟨source, target, hsource, htarget, hcount, hfirst⟩ := h.tile hp hlands hd
  rw [entryAt?_of_tile? htarget, entryAt?_of_tile? hsource, hcount, hfirst]
  by_cases hx : x < source.count
  · have hpc := h.parcel p (List.mem_of_getElem? hp)
    have hmem := mem_tiles_of_tile? hsource
    obtain ⟨level, hl⟩ := hpc.level hmem hx
    obtain ⟨data, hdata, -⟩ := hpc.hasData source hmem x hx level hl
    have hindex := (Array.getElem?_eq_some_iff.mp hdata).1
    rw [if_pos hx, if_pos hx, Nat.add_assoc, h.rebased.level hp hl, hl, Option.map_some,
      Option.map_some, Option.map_some, Level.placed, h.toNat_dataIndex hp hindex]
  · rw [if_neg hx, if_neg hx, Option.map_none]

/-! ### Shared places -/

/-- A tile of the map with levels comes from a cell of a parcel that lands there. -/
theorem origin (h : Joined parcels b) {target : Tile} (htarget : b.tile? d = some target)
    (hne : target.levelCount ≠ 0) : ∃ (i : Nat) (p : Parcel) (c : Cell),
      parcels[i]? = some p ∧ p.LandsOn b.grid c d ∧ b.grid.contains d = true := by
  obtain ⟨i, p, c, -, hp, hlands⟩ := h.filled.origin htarget hne
  exact ⟨i, p, c, hp, hlands, contains_of_tile? htarget⟩

/-- Take references of positions that are those of the parcels, moved by the records before.
Then positions share a place exactly if they come from one parcel in which they shared it. -/
theorem shared_iff (h : Joined parcels b) {at? : Board → Cell → Nat → Option Nat}
    (total : Parcel → Nat)
    (hoccupied : ∀ {d : Cell} {x n : Nat}, at? b d x = some n →
      ∃ tile, b.tile? d = some tile ∧ tile.levelCount ≠ 0)
    (hbound : ∀ {p : Parcel} {c : Cell} {x m : Nat}, p.board.Consistent →
      at? p.board c x = some m → m < total p)
    (hmoved : ∀ {i : Nat} {p : Parcel} {c d : Cell}, parcels[i]? = some p →
      p.LandsOn b.grid c d → b.grid.contains d = true → ∀ x : Nat,
        at? b d x = (at? p.board c x).map fun m => recordsBefore total parcels i + m)
    (d e : Cell) (x y : Nat) :
    Shares at? b d x e y ↔ SharedInParcel parcels b.grid at? d x e y := by
  constructor
  · rintro ⟨n, hn, hn'⟩
    obtain ⟨s, hs, hsne⟩ := hoccupied hn
    obtain ⟨t, ht, htne⟩ := hoccupied hn'
    obtain ⟨i, p, c, hp, hc, hd⟩ := h.origin hs hsne
    obtain ⟨j, q, c', hq, hc', he⟩ := h.origin ht htne
    rw [hmoved hp hc hd] at hn
    rw [hmoved hq hc' he] at hn'
    obtain ⟨m, hm, rfl⟩ := Option.map_eq_some_iff.mp hn
    obtain ⟨m', hm', hsame⟩ := Option.map_eq_some_iff.mp hn'
    -- The place is in the stretches of both parcels, which are then one parcel.
    obtain ⟨rfl, rfl⟩ := recordsBefore_inj hp hq
      (hbound (h.parcel p (List.mem_of_getElem? hp)) hm)
      (hbound (h.parcel q (List.mem_of_getElem? hq)) hm') hsame.symm
    cases hp.symm.trans hq
    exact ⟨i, p, c, c', hp, ⟨hc, hd⟩, ⟨hc', he⟩, m, hm, hm'⟩
  · rintro ⟨i, p, c, c', hp, ⟨hc, hd⟩, ⟨hc', he⟩, m, hm, hm'⟩
    refine ⟨recordsBefore total parcels i + m, ?_, ?_⟩
    · rw [hmoved hp hc hd, hm, Option.map_some]
    · rw [hmoved hp hc' he, hm', Option.map_some]

/-- A tile with a position has levels. -/
theorem levelCount_ne_zero_of_lt {tile : Tile} {x : Nat} (h : x < tile.count) :
    tile.levelCount ≠ 0 := by
  intro hzero
  rw [Tile.count, hzero] at h
  exact absurd h (Nat.not_lt_zero x)

/-- Two positions of a map have one record exactly if they had one in a parcel. -/
theorem sharedRecord_iff (h : Joined parcels b) (d e : Cell) (x y : Nat) :
    Shares recordAt? b d x e y ↔ SharedInParcel parcels b.grid recordAt? d x e y := by
  refine h.shared_iff levelTotal (fun hn => ?_) (fun hpc hm => ?_) h.recordAt?_eq d e x y
  · obtain ⟨tile, htile, hx, -⟩ := recordAt?_eq_some_iff.mp hn
    exact ⟨tile, htile, levelCount_ne_zero_of_lt hx⟩
  · obtain ⟨tile, htile, hx, rfl⟩ := recordAt?_eq_some_iff.mp hm
    exact Nat.lt_of_lt_of_le (Nat.add_lt_add_left hx _)
      (hpc.run_le tile (mem_tiles_of_tile? htile))

/-- Two positions of a map have one entry exactly if they had one in a parcel. -/
theorem sharedEntry_iff (h : Joined parcels b) (d e : Cell) (x y : Nat) :
    Shares entryAt? b d x e y ↔ SharedInParcel parcels b.grid entryAt? d x e y := by
  refine h.shared_iff dataTotal (fun hn => ?_) (fun hpc hm => ?_) h.entryAt?_eq d e x y
  · obtain ⟨tile, -, htile, hx, -⟩ := entryAt?_eq_some_iff.mp hn
    exact ⟨tile, htile, levelCount_ne_zero_of_lt hx⟩
  · obtain ⟨tile, level, htile, hx, hl, rfl⟩ := entryAt?_eq_some_iff.mp hm
    obtain ⟨data, hdata, -⟩ := hpc.hasData tile (mem_tiles_of_tile? htile) _ hx level hl
    exact (Array.getElem?_eq_some_iff.mp hdata).1

/-- If no parcel shares data between positions, neither does the map. -/
theorem unshared (h : Joined parcels b) (hu : ∀ p ∈ parcels, p.board.Unshared) : b.Unshared := by
  intro d e x y n hd he
  obtain ⟨i, p, c, c', hp, ⟨hc, -⟩, ⟨hc', -⟩, m, hm, hm'⟩ :=
    (h.sharedEntry_iff d e x y).mp ⟨n, hd, he⟩
  obtain ⟨rfl, rfl⟩ := hu p (List.mem_of_getElem? hp) c c' x y m hm hm'
  exact ⟨hc.inj hc', rfl⟩

end Joined

/-! ### Parcels stay apart -/

/-- In a map that was put together, two positions of tiles refer to one level record exactly
if they come from one parcel, in which they already did, and the same holds for entries of
the data. If no parcel shares data between positions, then neither does the map; and
whenever an event happens to it, before or after others, the data of a position changes
exactly if the event reports that position. -/
theorem stitch_isolates {parcels : List Parcel} {b : Board} (h : stitch parcels = .ok b)
    (hlevels : (parcels.map fun p => p.board.levels.size).sum < UInt32.size)
    (hdata : (parcels.map fun p => p.board.data.size).sum < UInt32.size) :
    (∀ (d e : Cell) (x y : Nat),
        (Shares recordAt? b d x e y ↔ SharedInParcel parcels b.grid recordAt? d x e y) ∧
        (Shares entryAt? b d x e y ↔ SharedInParcel parcels b.grid entryAt? d x e y)) ∧
      ((∀ p ∈ parcels, p.board.Unshared) → b.Unshared ∧
        ∀ (earlier : List Box) (damage : Box), ∃ mid after report,
          b.damageAll? earlier = some mid ∧ mid.damage? damage = some (after, report) ∧
          ∀ (d : Cell) (x i : Nat), b.entryAt? d x = some i →
            (after.data[i]? ≠ mid.data[i]? ↔
              ∃ k ∈ report.strikes, k.cell = d ∧ k.level = x)) := by
  have hjoined := Joined.of_stitch h hlevels hdata
  refine ⟨fun d e x y => ⟨hjoined.sharedRecord_iff d e x y, hjoined.sharedEntry_iff d e x y⟩,
    fun hparcels => ?_⟩
  have hu := hjoined.unshared hparcels
  refine ⟨hu, fun earlier damage => ?_⟩
  obtain ⟨data, hearlier, hwear⟩ := hjoined.consistent.exists_damageAll? earlier
  -- Events change neither tiles nor levels, so positions keep their places.
  obtain ⟨after, report, hdamage, hchanged⟩ :=
    (hjoined.consistent.worn hwear).changed_iff_struck hu damage
  exact ⟨_, _, report, hearlier, hdamage, hchanged⟩

/-- Two rows of walls, one in front of the other. -/
def wallRows : List Parcel :=
  [⟨wallRow, .zero, .none, 1⟩, ⟨wallRow, ⟨.zero, .zero, .one⟩, .half, 2⟩]

/-- What the two are stitched to. -/
def wallRowsMap : Board := (stitch wallRows).toOption.getD default

/-- A box over the middle of the first row changes the data of the wall there. -/
theorem wallRows_isolated :
    stitch wallRows = .ok wallRowsMap ∧ wallRowsMap.entryAt? ⟨1, 0⟩ 0 = some 1 ∧
      (¬ ∃ y, Shares entryAt? wallRowsMap ⟨1, 0⟩ 0 ⟨1, 1⟩ y) ∧
      ∃ after report, wallRowsMap.damage? wallRowBox = some (after, report) ∧
        after.data[1]? ≠ wallRowsMap.data[1]? := by
  have hb : stitch wallRows = .ok wallRowsMap := by decide +kernel
  have hentry : wallRowsMap.entryAt? ⟨1, 0⟩ 0 = some 1 := by decide +kernel
  have hrow : wallRow.Unshared := DisjointRuns.unshared disjointRuns_wallRow distinctData_wallRow
  obtain ⟨-, hisolated⟩ := stitch_isolates hb (by decide +kernel) (by decide +kernel)
  obtain ⟨hu, hevents⟩ := hisolated (by simp [wallRows, hrow])
  obtain ⟨mid, after, report, hmid, hdamage, hchanged⟩ := hevents [] wallRowBox
  obtain rfl : wallRowsMap = mid := Option.some.inj hmid
  -- The report is looked at by running the event; that the data changed follows from it.
  have hnamed : (wallRowsMap.damage? wallRowBox).map (fun r =>
      r.2.strikes.any fun k => k.cell = ⟨1, 0⟩ ∧ k.level = 0) = some true := by decide +kernel
  rw [hdamage, Option.map_some, Option.some.injEq] at hnamed
  refine ⟨hb, hentry, ?_, after, report, hdamage, (hchanged _ _ _ hentry).mpr ?_⟩
  · rintro ⟨y, i, hd, he⟩
    exact absurd (hu _ _ _ _ i hd he).1 (by decide)
  · obtain ⟨k, hk, hnames⟩ := Array.any_eq_true'.mp hnamed
    exact ⟨k, hk, of_decide_eq_true hnames⟩

end Battlemap
