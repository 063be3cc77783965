import Battlemap.Proofs.Damage.Effect
import Battlemap.Proofs.Damage.Spread

/-!
# `Battlemap.Proofs.Damage.Independence`: events that do not meet commute

A run of visits reads and strikes no data but that of the tiles that it visits. So it
makes the same visits and the same strikes on any other data that agrees with the board
at the places of these tiles (`Cascade.Runs.replay`). The agreement is fixed for the
whole run: what a sweep strikes, it strikes alike on both sides (`Sweep.Alike`).

Take two events that have no visited tile in common, on a board whose levels do not
share data. The strikes of one are at no place of the other, so each replays after the
other, and the data after both is the board's, struck at the places of both, in an order
that does not matter: `Board.events_commute`.
-/

set_option autoImplicit false

namespace Battlemap

/-- Two arrays of data agree at some places. -/
def AgreeOn (P : Nat → Prop) (data data' : Array LevelData) : Prop :=
  ∀ i, P i → data'[i]? = data[i]?

/-- Changing the same place in the same way keeps the agreement. -/
theorem AgreeOn.modify {P : Nat → Prop} {data data' : Array LevelData} (h : AgreeOn P data data')
    (place : Nat) (f : LevelData → LevelData) :
    AgreeOn P (data.modify place f) (data'.modify place f) := by
  intro i hi
  rw [Array.getElem?_modify, Array.getElem?_modify, h i hi]

namespace Sweep

/-- Two sweeps have done the same, on data that agrees. -/
structure Alike (P : Nat → Prop) (s s' : Sweep) : Prop where
  data : AgreeOn P s.data s'.data
  collapsed : s'.collapsed = s.collapsed
  strikes : s'.strikes = s.strikes

variable {P : Nat → Prop}

/-- A level whose data the sweeps agree on takes the same strike in both. -/
theorem Alike.strikeLevel {s s' : Sweep} (h : Alike P s s') (g : Grid) (v : Visit)
    (position : Nat) {level : Level} (hlevel : P level.dataIndex.toNat) :
    Alike P (s.strikeLevel g v position level) (s'.strikeLevel g v position level) := by
  unfold Sweep.strikeLevel
  rw [h.data _ hlevel]
  split
  case isFalse => exact h
  case isTrue =>
    split
    case h_1 => exact h
    case h_2 d _ =>
      split
      case isFalse => exact h
      case isTrue =>
        refine ⟨h.data.modify _ _, ?_, ?_⟩
        · dsimp only
          rw [h.collapsed]
        · dsimp only
          rw [h.strikes]

/-- Passes over the same positions strike alike, if the data of these is the same at the start.
-/
theorem Alike.foldlM_strike {b : Board} {v : Visit} {tile : Tile} {positions : List Nat}
    (hlevels : ∀ p ∈ positions, ∀ level, b.levels[tile.first + p]? = some level →
      P level.dataIndex.toNat) {s s' t : Sweep} (h : Alike P s s')
    (ht : positions.foldlM (Sweep.strike b v tile) s = some t) :
    ∃ t', positions.foldlM (Sweep.strike b v tile) s' = some t' ∧ Alike P t t' := by
  induction positions generalizing s s' with
  | nil =>
    cases ht
    exact ⟨s', rfl, h⟩
  | cons p positions ih =>
    rw [List.foldlM_cons, Option.bind_eq_bind, Option.bind_eq_some_iff] at ht
    obtain ⟨next, hnext, ht⟩ := ht
    obtain ⟨level, hl, rfl⟩ := Option.map_eq_some_iff.mp hnext
    have halike := h.strikeLevel b.grid v p (hlevels p (by simp) level hl)
    obtain ⟨t', ht', halike'⟩ := ih (fun q hq => hlevels q (by simp [hq])) halike ht
    refine ⟨t', ?_, halike'⟩
    rw [List.foldlM_cons, Sweep.strike, hl]
    exact ht'

end Sweep

namespace Cascade

variable {P : Nat → Prop}

/-- The state with other data. -/
def withData (s : Cascade) (data : Array LevelData) : Cascade := { s with data := data }

/-- Passing spans on does not look at the data. -/
theorem reach_withData (spans : List Span) (s : Cascade) (data : Array LevelData) (c : Cell) :
    (s.withData data).reach spans c = (s.reach spans c).map fun t => t.withData data := by
  unfold reach withData
  dsimp only
  split
  · unfold extend
    dsimp only
    split <;> rfl
  · split <;> rfl

/-- Reaching tiles has nothing to do with the data of levels. -/
theorem foldlM_reach_withData (spans : List Span) (data : Array LevelData) (cells : List Cell)
    (s : Cascade) :
    cells.foldlM (reach spans) (s.withData data)
      = (cells.foldlM (reach spans) s).map fun t => t.withData data := by
  induction cells generalizing s with
  | nil => rfl
  | cons c cells ih =>
    rw [List.foldlM_cons, List.foldlM_cons, reach_withData]
    cases s.reach spans c with
    | none => rfl
    | some t => exact ih t

/-- The levels of the tile of a visit have their data at places that are agreed on. -/
def WithinPlaces (b : Board) (P : Nat → Prop) (v : Visit) : Prop :=
  ∀ tile, b.tiles[b.grid.tileIndex v.cell]? = some tile → ∀ p < tile.count, ∀ level,
    b.levels[tile.first + p]? = some level → P level.dataIndex.toNat

/-- A visit does the same on data that agrees at the places of its tile. -/
theorem visit_withData {b : Board} {s t : Cascade} {v : Visit} (hv : WithinPlaces b P v)
    {data : Array LevelData} (h : AgreeOn P s.data data) (ht : visit b s v = some t) :
    ∃ data', visit b (s.withData data) v = some (t.withData data') ∧ AgreeOn P t.data data' := by
  obtain ⟨swept, hswept, hrest⟩ := Option.bind_eq_some_iff.mp ((visit_eq b s v).symm.trans ht)
  obtain ⟨tile, htile, hrun⟩ := Option.bind_eq_some_iff.mp hswept
  have hstart : Sweep.Alike P ⟨s.data, [], s.strikes⟩ ⟨data, [], s.strikes⟩ := ⟨h, rfl, rfl⟩
  obtain ⟨swept', hrun', halike⟩ :=
    hstart.foldlM_strike (fun p hp => hv tile htile p (List.mem_range.mp hp)) hrun
  have hswept' : sweep b v data s.strikes = some swept' := by
    rw [sweep, htile]
    exact hrun'
  have hsettle : (s.withData data).settle v swept' = (s.settle v swept).withData swept'.data := by
    rw [settle, halike.strikes]
    rfl
  have hdata : t.data = swept.data := (visit_frame hswept ht).1
  refine ⟨swept'.data, ?_, hdata ▸ halike.data⟩
  -- What comes after the sweep depends on the collapsed levels alone.
  rw [visit_eq]
  show (sweep b v data s.strikes).bind _ = _
  rw [hswept', Option.bind_some, halike.collapsed, hsettle]
  by_cases hempty : swept.collapsed.isEmpty = true
  · rw [if_pos hempty] at hrest ⊢
    cases hrest
    rfl
  · rw [if_neg hempty] at hrest ⊢
    rw [foldlM_reach_withData, hrest, Option.map_some]

/-- A run does the same on data that agrees at the places of the tiles that it visits. -/
theorem Runs.replay {b : Board} {s final : Cascade} {visits : List Visit}
    (hruns : Runs b s visits final) (hvisits : ∀ v ∈ visits, WithinPlaces b P v)
    (base : Array LevelData) {data : Array LevelData} (h : AgreeOn P s.data data) :
    ∃ data', Runs { b with data := base } (s.withData data) visits (final.withData data') := by
  induction hruns generalizing data with
  | done hnext => exact ⟨data, .done hnext⟩
  | @visit s t final v visits hnext ht _ ih =>
    obtain ⟨data', ht', hagree⟩ := visit_withData (s := s.pop v) (hvisits v (by simp)) h ht
    obtain ⟨data'', hrest⟩ := ih (fun w hw => hvisits w (by simp [hw])) hagree
    exact ⟨data'', .visit hnext ht' hrest⟩

/-- The visits of a run are to tiles of the grid. -/
theorem Safe.contains_of_runs {b : Board} (hb : b.Consistent) {s final : Cascade}
    {visits : List Visit} (h : s.Safe b) (hruns : Runs b s visits final) :
    ∀ v ∈ visits, b.grid.contains v.cell = true := by
  induction hruns with
  | done => simp
  | @visit s t final v visits hnext ht _ ih =>
    intro w hw
    rcases List.mem_cons.mp hw with rfl | hw
    · exact h.contains w (Array.mem_of_back? hnext)
    · exact ih (h.step hb ⟨v, hnext, ht⟩) w hw

end Cascade

namespace Board

variable {b : Board}

/-- Neither has the start of an event. -/
theorem cascadeOf_withData (b : Board) (data : Array LevelData) (damage : Box) :
    cascadeOf { b with data := data } damage = (b.cascadeOf damage).withData data := by
  have hpush (spans : List Span) (cells : List Cell) (s : Cascade) :
      cells.foldl (fun s c => s.push ⟨c, spans⟩) (s.withData data)
        = (cells.foldl (fun s c => s.push ⟨c, spans⟩) s).withData data := by
    induction cells generalizing s with
    | nil => rfl
    | cons c cells ih => exact ih (s.push ⟨c, spans⟩)
  exact hpush _ (b.struckCells damage) ⟨b.data, #[], ∅, ∅, #[], #[]⟩

/-- An event that visits no tile of another one does the same after it. -/
theorem Outcome.damage?_after (hb : b.Consistent) (hu : b.Unshared) {first second : Box}
    {visits visits' : List Visit} {final final' : Cascade} (h : b.Outcome first visits final)
    (h' : b.Outcome second visits' final') (hdisjoint : ∀ c ∈ final.visited, c ∉ final'.visited) :
    damage? { b with data := final.data } second
      = some ({ b with data := strikeAll final.data (b.placesOf final'.strikes.toList) },
        ⟨final'.visited, final'.strikes⟩) := by
  have hdata : (b.cascadeOf second).data = b.data := (Cascade.foldl_push_frame _ _ _).1
  have hcontains := (hb.safe_cascadeOf second).contains_of_runs hb h'.runs
  -- The first event leaves the data of the tiles of the second one alone.
  have hagree : AgreeOn (fun i => ∃ c p, c ∈ final'.visited ∧ b.entryAt? c p = some i)
      (b.cascadeOf second).data final.data := by
    rintro i ⟨c, p, hc, hi⟩
    rw [hdata]
    exact h.tally.data_of_not_visited hu (fun hmem => hdisjoint c hmem hc) hi
  have hwithin : ∀ v ∈ visits', Cascade.WithinPlaces b
      (fun i => ∃ c p, c ∈ final'.visited ∧ b.entryAt? c p = some i) v := by
    intro v hv tile htile p hp level hl
    refine ⟨v.cell, p, ?_, entryAt?_eq_some_iff.mpr
      ⟨tile, level, tile?_eq_some_iff.mpr ⟨hcontains v hv, htile⟩, hp, hl, rfl⟩⟩
    rw [← Array.mem_toList_iff, visited_of_runs h'.runs]
    exact List.mem_map_of_mem hv
  obtain ⟨data', hreplay⟩ := h'.runs.replay hwithin final.data hagree
  rw [← cascadeOf_withData] at hreplay
  -- That is the outcome of the second event on the board after the first one.
  obtain ⟨visits'', final'', houtcome⟩ := (hb.worn h.wear).exists_outcome hu second
  have hrun := Cascade.run_eq_some_iff.mpr ⟨visits'', houtcome.runs⟩
  rw [Cascade.run_eq_some_iff.mpr ⟨visits', hreplay⟩] at hrun
  cases hrun
  have hstruck : data' = strikeAll final.data (b.placesOf final'.strikes.toList) :=
    houtcome.tally.balanced
  rw [houtcome.damage?_eq, ← hstruck]
  rfl

/-- Two events on a board whose levels do not share data commute if they visit no tile
in common: in both orders the board after them is the same, and so is the report of
each. -/
theorem events_commute {grid : Grid} {payloadSize : UInt32} {tiles : Array Tile}
    {levels : Array Level} {data : Array LevelData}
    (hparts : ofParts grid payloadSize tiles levels data = .ok b) (hu : b.Unshared)
    (first second : Box) :
    ∃ one report other report', b.damage? first = some (one, report) ∧
      b.damage? second = some (other, report') ∧
      ((∀ c ∈ report.visited, c ∉ report'.visited) →
        ∃ both, one.damage? second = some (both, report') ∧
          other.damage? first = some (both, report)) := by
  have hb := Consistent.of_ofParts hparts
  obtain ⟨visits, final, h⟩ := hb.exists_outcome hu first
  obtain ⟨visits', final', h'⟩ := hb.exists_outcome hu second
  refine ⟨_, _, _, _, h.damage?_eq, h'.damage?_eq, fun hdisjoint => ?_⟩
  have hsame : strikeAll final.data (b.placesOf final'.strikes.toList)
      = strikeAll final'.data (b.placesOf final.strikes.toList) := by
    rw [h.tally.balanced, h'.tally.balanced, ← strikeAll_append, ← strikeAll_append]
    exact strikeAll_perm List.perm_append_comm b.data
  refine ⟨_, h.damage?_after hb hu h' hdisjoint, ?_⟩
  -- The other order strikes the same places, so it ends with the same data.
  rw [hsame]
  exact h'.damage?_after hb hu h fun c hc' hc => hdisjoint c hc hc'

/-- Four tiles in a row. There is a wall at each end, which the next strike destroys,
and nothing between them. -/
def farWalls : Board where
  grid := ⟨4, 1, .one, .zero, .zero, .one⟩
  payloadSize := 0
  tiles := #[⟨1, 0⟩, ⟨0, 1⟩, ⟨0, 1⟩, ⟨1, 1⟩]
  levels := #[wallRow.wall 0, wallRow.wall 1]
  data := #[wallRow.standing, wallRow.standing]

/-- A box over the first tile. -/
def firstWallBox : Box := ⟨⟨.zero, .zero, .zero⟩, ⟨.zero, .one, .zero⟩⟩

/-- A box over the last tile. -/
def lastWallBox : Box := ⟨⟨⟨0x40400000⟩, .zero, .zero⟩, ⟨⟨0x40400000⟩, .one, .zero⟩⟩

/-- The walls far apart are a board that is accepted. -/
theorem ofParts_farWalls : ofParts farWalls.grid farWalls.payloadSize farWalls.tiles
    farWalls.levels farWalls.data = .ok farWalls := rfl

/-- No two of these walls share their data. -/
theorem unshared_farWalls : farWalls.Unshared :=
  DisjointRuns.unshared (by decide) (by decide)

/-- Each wall falls, and its collapse goes on to the tile next to it but not to the
tile after that. So the two events commute. -/
theorem farWalls_events_commute :
    ∃ one report other report' both, farWalls.damage? firstWallBox = some (one, report) ∧
      farWalls.damage? lastWallBox = some (other, report') ∧
      report.visited = #[⟨0, 0⟩, ⟨1, 0⟩] ∧ report'.visited = #[⟨3, 0⟩, ⟨2, 0⟩] ∧
      one.damage? lastWallBox = some (both, report') ∧
      other.damage? firstWallBox = some (both, report) := by
  obtain ⟨one, report, other, report', hfirst, hlast, hcommute⟩ :=
    events_commute ofParts_farWalls unshared_farWalls firstWallBox lastWallBox
  have hvisited : (farWalls.damage? firstWallBox).map (fun r => r.2.visited)
      = some #[⟨0, 0⟩, ⟨1, 0⟩] := by decide +kernel
  have hvisited' : (farWalls.damage? lastWallBox).map (fun r => r.2.visited)
      = some #[⟨3, 0⟩, ⟨2, 0⟩] := by decide +kernel
  rw [hfirst, Option.map_some] at hvisited
  rw [hlast, Option.map_some] at hvisited'
  have hreport : report.visited = #[⟨0, 0⟩, ⟨1, 0⟩] := Option.some.inj hvisited
  have hreport' : report'.visited = #[⟨3, 0⟩, ⟨2, 0⟩] := Option.some.inj hvisited'
  obtain ⟨both, hone, hother⟩ := hcommute (by rw [hreport, hreport']; simp)
  exact ⟨one, report, other, report', both, hfirst, hlast, hreport, hreport', hone, hother⟩

end Board

end Battlemap
