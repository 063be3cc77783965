import Battlemap.Proofs.Damage.Event
import Mathlib.Data.Set.Card
import Mathlib.Order.Bounds.Basic

/-!
# `Battlemap.Proofs.Damage.Spread`: which tiles an event visits

`Board.SpreadClosed` says of a set of tiles that it holds the tiles under
the box, and with a tile in which the event destroyed a level all
neighbours of that tile. `damage_visits_least`: on a board whose keys
tell its tiles apart, an event visits exactly the least such set, every
tile of it once.

The tiles visited by the end are such a set because no visit is left on
the stack then, so that whatever was delivered to has been visited. They
are the least one because damage reaches a tile in no other way
(`Board.Spread`).
-/

set_option autoImplicit false

namespace Battlemap

namespace Board

variable {b : Board} {damage : Box}

/-- A box strikes a tile by itself if it does not miss the map, and the
tile lies between the tiles of its lower and its upper corner. -/
structure IsStruckBy (b : Board) (damage : Box) (c : Cell) : Prop where
  tiles : b.tiles ≠ #[]
  meets : b.isMissedBy damage = false
  column : (b.grid.cellAt damage.min.x damage.min.z).x.toNat ≤ c.x.toNat ∧
    c.x.toNat ≤ (b.grid.cellAt damage.max.x damage.max.z).x.toNat
  row : (b.grid.cellAt damage.min.x damage.min.z).z.toNat ≤ c.z.toNat ∧
    c.z.toNat ≤ (b.grid.cellAt damage.max.x damage.max.z).z.toNat

/-- The cells that a box strikes are listed exactly. -/
theorem mem_struckCells_iff {c : Cell} : c ∈ b.struckCells damage ↔ b.IsStruckBy damage c := by
  unfold struckCells
  split
  case isTrue hnone =>
    refine ⟨nofun, fun h => ?_⟩
    rcases Bool.or_eq_true_iff.mp hnone with hempty | hmissed
    · exact absurd (Array.isEmpty_iff.mp hempty) h.tiles
    · rw [h.meets] at hmissed
      cases hmissed
  case isFalse hsome =>
    rw [Bool.or_eq_true_iff, not_or, Array.isEmpty_iff, Bool.not_eq_true] at hsome
    rw [Grid.mem_rectangle_iff]
    exact ⟨fun ⟨hcolumn, hrow⟩ => ⟨hsome.1, hsome.2, hcolumn, hrow⟩, fun h => ⟨h.column, h.row⟩⟩

/-- A set of cells holds all that an event with some strikes spreads
to. -/
structure SpreadClosed (b : Board) (damage : Box) (strikes : Array Strike)
    (cells : Set Cell) : Prop where
  /-- It holds the tiles under the box. -/
  struck : ∀ c, b.IsStruckBy damage c → c ∈ cells
  /-- With a tile in which a level was destroyed, it holds the tiles next
  to it. -/
  next : ∀ k ∈ strikes, k.destroyed = true → k.cell ∈ cells →
    ∀ n, b.grid.contains n = true → k.cell.Adjoins n → n ∈ cells

/-- An event spreads within every closed set. -/
theorem Spread.mem {strikes : Array Strike} {cells : Set Cell}
    (hclosed : b.SpreadClosed damage strikes cells) {c : Cell}
    (h : b.Spread damage strikes.toList c) : c ∈ cells := by
  induction h with
  | struck hc => exact hclosed.struck _ (mem_struckCells_iff.mp hc)
  | next hk hdestroyed _ hn ih =>
    obtain ⟨hin, hadj⟩ := Grid.mem_neighbours_iff.mp hn
    exact hclosed.next _ (Array.mem_toList_iff.mp hk) hdestroyed ih _ hin hadj

end Board

namespace Cascade

variable {b : Board} {damage : Box} {s : Cascade}

/-- When no visit waits any more, the visited tiles are a closed set. -/
theorem Invariant.spreadClosed (hb : b.Consistent) (h : s.Invariant b damage)
    (hdone : s.stack = #[]) : b.SpreadClosed damage s.strikes {c | c ∈ s.visited} := by
  have htouched : s.touched = s.visited.toList := by simp [touched, waiting, hdone]
  -- What something was delivered to is touched, and thus visited.
  have arrive (c : Cell) (hc : b.grid.contains c = true)
      (hsome : b.deliveredBy damage s.strikes.toList c ≠ []) : c ∈ s.visited := by
    have hmem := (h.ledger.arrived c hc).mp hsome
    rw [htouched] at hmem
    exact Array.mem_toList_iff.mp hmem
  refine ⟨fun c hc => ?_, fun k hk hdestroyed _ n hn hadj => ?_⟩
  · have hstruck := Board.mem_struckCells_iff.mpr hc
    refine arrive c (hb.contains_struckCells hstruck) ?_
    simp [Board.deliveredBy, hstruck]
  · obtain ⟨span, hspan⟩ := h.passed_on k hk hdestroyed
    have hpassed : span ∈ b.passedTo s.strikes.toList n :=
      List.mem_filterMap.mpr ⟨k, List.mem_filter.mpr ⟨Array.mem_toList_iff.mpr hk, by simpa⟩, hspan⟩
    exact arrive n hn (List.ne_nil_of_mem (List.mem_append_right _ hpassed))

end Cascade

namespace Board

variable {b : Board}

/-- On a board whose keys tell its tiles apart, every event ends. The
visits that it takes off its stack are to different tiles, they are the
visits that its report counts, and their tiles are the least set that
holds the tiles under the box and is closed under going from a tile in
which the event destroyed a level to the tiles next to it. -/
theorem damage_visits_least {grid : Grid} {payloadSize : UInt32} {tiles : Array Tile}
    {levels : Array Level} {data : Array LevelData}
    (hparts : ofParts grid payloadSize tiles levels data = .ok b) (hg : b.grid.FitsKeys)
    (damage : Box) :
    ∃ visits final report,
      Cascade.Runs b (b.cascadeOf damage) visits final ∧
      b.damage? damage = some ({ b with data := final.data }, report) ∧
      (visits.map Visit.cell).Nodup ∧
      report.visited.toList = visits.map Visit.cell ∧
      IsLeast {cells | b.SpreadClosed damage report.strikes cells} {c | c ∈ report.visited} ∧
      report.visited.size = {c | c ∈ report.visited}.ncard := by
  have hb := Consistent.of_ofParts hparts
  obtain ⟨final, hrun, -⟩ := (hb.safe_cascadeOf damage).run hb
  obtain ⟨visits, hruns⟩ := Cascade.run_eq_some_iff.mp hrun
  obtain ⟨hsteps, hdone⟩ := hruns.steps
  have hinv := Cascade.Invariant.of_reachable hb hg hsteps
  have hvisited : final.visited.toList = visits.map Visit.cell := by
    have hnone : (b.cascadeOf damage).visited = #[] := (Cascade.foldl_push_frame _ _ _).2.1
    simpa [hnone] using hruns.visited
  -- No visit waits at the end, so the touched tiles are the visited ones.
  have htouched : final.touched = final.visited.toList := by
    simp [Cascade.touched, Cascade.waiting, hdone]
  have hnodup : final.visited.toList.Nodup := htouched ▸ hinv.ledger.nodup
  refine ⟨visits, final, ⟨final.visited, final.strikes⟩, hruns, ?_, hvisited ▸ hnodup, hvisited,
    ⟨hinv.spreadClosed hb hdone, fun cells hclosed c hc => ?_⟩, ?_⟩
  · rw [damage?, hrun, Option.map_some]
  · exact (hinv.spread c (htouched.symm ▸ Array.mem_toList_iff.mpr hc)).mem hclosed
  · have hset : {c | c ∈ final.visited} = (final.visited.toList.toFinset : Set Cell) := by
      ext c
      simp
    rw [hset, Set.ncard_coe_finset, List.toFinset_card_of_nodup hnodup, Array.length_toList]

/-- Three tiles in a row, each with a wall that the next strike
destroys. -/
def wallRow : Board where
  grid := ⟨3, 1, .one, .zero, .zero, .one⟩
  payloadSize := 0
  tiles := #[⟨1, 0⟩, ⟨1, 1⟩, ⟨1, 2⟩]
  levels := #[wall 0, wall 1, wall 2]
  data := #[standing, standing, standing]
where
  wall (index : UInt32) : Level := ⟨.facingUp .zero, .invalid, .zero, .infinity, index, 0⟩
  standing : LevelData := ⟨{ LevelHeader.plain with kind := .wall, integrity := 1 }, []⟩

/-- A box over the middle of the row. -/
def wallRowBox : Box := ⟨⟨.one, .zero, .zero⟩, ⟨.one, .one, .zero⟩⟩

/-- The row of walls is a board that is accepted. -/
theorem ofParts_wallRow : ofParts wallRow.grid wallRow.payloadSize wallRow.tiles wallRow.levels
    wallRow.data = .ok wallRow := rfl

/-- The row is short enough for keys to tell its cells apart. -/
theorem fitsKeys_wallRow : wallRow.grid.FitsKeys := ⟨by decide, by decide⟩

/-- An event at the second wall of the row visits the least set of cells that it can spread to.
-/
theorem wallRow_visits_least :
    wallRow.struckCells wallRowBox = [⟨1, 0⟩] ∧
      ∃ visits final report,
        Cascade.Runs wallRow (wallRow.cascadeOf wallRowBox) visits final ∧
        wallRow.damage? wallRowBox = some ({ wallRow with data := final.data }, report) ∧
        (visits.map Visit.cell).Nodup ∧
        report.visited.toList = visits.map Visit.cell ∧
        IsLeast {cells | wallRow.SpreadClosed wallRowBox report.strikes cells}
          {c | c ∈ report.visited} ∧
        report.visited.size = {c | c ∈ report.visited}.ncard :=
  ⟨by decide +kernel, damage_visits_least ofParts_wallRow fitsKeys_wallRow wallRowBox⟩

end Board

end Battlemap
