import Battlemap.Proofs.Damage.Delivery
import Battlemap.Proofs.Damage.Effect
import Battlemap.Proofs.Number.Operations
import Battlemap.Proofs.Number.Order

/-!
# `Battlemap.Proofs.Damage.Collapse`: which levels a collapse reaches

Two levels meet if neither starts above the upper end of the other
(`Level.Meets`). A collapsed level passes on the range from its start to
its upper end, where the range is cut off at the greatest height of the
grid. `Grid.overlaps_collapseSpan_iff` says what this leaves of the
levels that it meets: those that do not start above the greatest height.

A level of a tile is named in the report of an event exactly if the box
reaches it, or a level that it meets was destroyed in a tile next to it
which was visited before, and it does not start above the greatest height
of the grid (`collapse_reaches`). The visit of its tile makes the
connection: `Outcome.exists_visit` gives the state in which the tile is
next, and the visit has by then what the box and the strikes so far
delivered.

No check of a board keeps its levels below the greatest height of its
grid. Two walls that start above it stand next to each other in
`highRow`; the range that one passes on ends below its start, so that its
collapse does not even reach a wall at the same heights
(`highRow_wall_stands`).
-/

set_option autoImplicit false

namespace Battlemap

/-! ### Heights that meet -/

/-- The upper end of a level that starts at a number is a number. -/
theorem Level.isNaN_topHeight {l : Level} (h : l.baseHeight.isNaN = false) :
    l.topHeight.isNaN = false := by
  unfold topHeight
  split
  case isTrue hroof => exact Single.isNaN_add h hroof
  case isFalse => rfl

/-- Neither of two levels starts above the upper end of the other. -/
def Level.Meets (l m : Level) : Prop :=
  l.baseHeight ≤ m.topHeight ∧ m.baseHeight ≤ l.topHeight

instance (l m : Level) : Decidable (l.Meets m) :=
  inferInstanceAs (Decidable (l.baseHeight ≤ m.topHeight ∧ m.baseHeight ≤ l.topHeight))

/-- What a collapsed level passes on reaches the levels that it meets, apart from those
above the greatest height of the grid. -/
theorem Grid.overlaps_collapseSpan_iff (g : Grid) (l m : Level) :
    m.overlaps (g.collapseSpan l) = true ↔ l.Meets m ∧ ¬ g.maxHeight < m.baseHeight := by
  have hreach : m.overlaps (g.collapseSpan l) = true ↔
      m.baseHeight ≤ l.topHeight.min g.maxHeight ∧ l.baseHeight ≤ m.topHeight := by
    rw [Level.overlaps, Bool.and_eq_true, decide_eq_true_iff, decide_eq_true_iff]
    rfl
  rw [hreach]
  constructor
  · rintro ⟨hhigh, hlow⟩
    have hnumber : l.topHeight.isNaN = false := Level.isNaN_topHeight hlow.1
    rw [Single.le_min_iff hnumber] at hhigh
    exact ⟨⟨hlow, hhigh.1⟩, hhigh.2⟩
  · rintro ⟨⟨hlow, hhigh⟩, hbelow⟩
    exact ⟨(Single.le_min_iff hhigh.2.1).mpr ⟨hhigh, hbelow⟩, hlow⟩

/-! ### Levels of a tile -/

namespace Board

/-- A level is at a position of a tile. -/
def LevelAt (b : Board) (c : Cell) (position : Nat) (level : Level) : Prop :=
  ∃ tile, b.tile? c = some tile ∧ position < tile.count ∧
    b.levels[tile.first + position]? = some level

/-- A level at a position of a cell belongs to the run of the tile there. -/
theorem LevelAt.of_tile {b : Board} {c : Cell} {position : Nat} {level : Level}
    (h : b.LevelAt c position level) {tile : Tile}
    (htile : b.tiles[b.grid.tileIndex c]? = some tile) :
    position < tile.count ∧ b.levels[tile.first + position]? = some level := by
  obtain ⟨tile', htile', hposition, hlevel⟩ := h
  have hsame : tile' = tile :=
    Option.some.inj ((tile?_eq_some_iff.mp htile').2.symm.trans htile)
  exact hsame ▸ ⟨hposition, hlevel⟩

/-- The data of the levels of tiles is where `entryAt?` says. -/
theorem entryAt?_eq_some_iff_levelAt {b : Board} {c : Cell} {position i : Nat} :
    b.entryAt? c position = some i ↔
      ∃ level, b.LevelAt c position level ∧ level.dataIndex.toNat = i := by
  rw [entryAt?_eq_some_iff]
  constructor
  · rintro ⟨tile, level, htile, hposition, hlevel, hi⟩
    exact ⟨level, ⟨tile, htile, hposition, hlevel⟩, hi⟩
  · rintro ⟨level, ⟨tile, htile, hposition, hlevel⟩, hi⟩
    exact ⟨tile, level, htile, hposition, hlevel, hi⟩

/-- A level takes strikes: it is not destroyed, and is a floor or a wall. -/
def TakesStrikes (b : Board) (level : Level) : Prop :=
  ∃ d, b.data[level.dataIndex.toNat]? = some d ∧ d.header.isDestroyed = false ∧
    (d.header.kind = .floor ∨ d.header.kind = .wall)

end Board

/-- The report of an event names the level at a position of a tile. -/
def DamageReport.Names (r : DamageReport) (c : Cell) (position : Nat) : Prop :=
  ∃ k ∈ r.strikes, k.cell = c ∧ k.level = position

/-- An event visited one tile before another one. -/
def DamageReport.VisitsBefore (r : DamageReport) (c n : Cell) : Prop :=
  ∃ front back, r.visited.toList = front ++ n :: back ∧ c ∈ front

/-- The tiles before a visited tile are those in front of it, wherever the list of visits
is split at it. -/
theorem DamageReport.visitsBefore_iff {r : DamageReport} (hnodup : r.visited.toList.Nodup)
    {front back : List Cell} {n : Cell} (hsplit : r.visited.toList = front ++ n :: back)
    (c : Cell) : r.VisitsBefore c n ↔ c ∈ front := by
  constructor
  · rintro ⟨front', back', hsplit', hc⟩
    rw [hsplit, List.nodup_middle, List.nodup_cons, List.mem_append, not_or] at hnodup
    have hsame := hsplit.symm.trans hsplit'
    rw [List.append_cons_inj_of_notMem hnodup.1.1 hnodup.1.2] at hsame
    exact hsame.1 ▸ hc
  · intro hc
    exact ⟨front, back, hsplit, hc⟩

/-! ### The visit of a tile -/

namespace Cascade

variable {b : Board} {damage : Box} {s final : Cascade}

/-- A strike passes on what is left of its level below the greatest height. -/
theorem Tally.passesOn_iff (h : s.Tally b) {k : Strike} (hk : k ∈ s.strikes) {span : Span} :
    b.PassesOn k span ↔ k.destroyed = true ∧ ∃ level, b.LevelAt k.cell k.level level ∧
      span = b.grid.collapseSpan level := by
  obtain ⟨i, -, hentry, -⟩ := h.struck k hk
  obtain ⟨level, hlevel, -⟩ := Board.entryAt?_eq_some_iff_levelAt.mp hentry
  refine and_congr_right fun _ => ?_
  constructor
  · rintro ⟨tile, level', htile, hlevel', rfl⟩
    -- The tile array has one level at the position, the one that was struck.
    rw [(hlevel.of_tile htile).2] at hlevel'
    cases hlevel'
    exact ⟨level, hlevel, rfl⟩
  · rintro ⟨level', ⟨tile, htile, -, hlevel'⟩, rfl⟩
    exact ⟨tile, level', (Board.tile?_eq_some_iff.mp htile).2, hlevel', rfl⟩

/-- The spans of the next visit reach a level exactly if the box does, or a strike so far
destroyed a level next to it that it meets. -/
theorem Invariant.reached_iff (h : s.Invariant b damage) (htally : s.Tally b) {v : Visit}
    (hv : s.stack.back? = some v) (m : Level) :
    (∃ span ∈ v.spans, m.overlaps span = true) ↔
      (b.IsStruckBy damage v.cell ∧ m.overlaps ⟨damage.min.y, damage.max.y⟩ = true) ∨
        ∃ k ∈ s.strikes, k.destroyed = true ∧ k.cell.Adjoins v.cell ∧
          ∃ l, b.LevelAt k.cell k.level l ∧ l.Meets m ∧ ¬ b.grid.maxHeight < m.baseHeight := by
  -- A waiting visit has the spans that were delivered to its tile: that of the box, and those
  -- passed on to it.
  rw [h.ledger.spans v (Array.mem_of_back? hv)]
  constructor
  · rintro ⟨span, hspan, hreach⟩
    rcases Board.mem_deliveredBy_iff.mp hspan with ⟨hstruck, rfl⟩ | ⟨k, hk, hadj, hpass⟩
    · exact .inl ⟨hstruck, hreach⟩
    · have hk' := Array.mem_toList_iff.mp hk
      obtain ⟨hdestroyed, l, hl, rfl⟩ := (htally.passesOn_iff hk').mp hpass
      exact .inr ⟨k, hk', hdestroyed, hadj, l, hl,
        (b.grid.overlaps_collapseSpan_iff l m).mp hreach⟩
  · rintro (⟨hstruck, hreach⟩ | ⟨k, hk, hdestroyed, hadj, l, hl, hmeets⟩)
    · exact ⟨_, Board.mem_deliveredBy_iff.mpr (.inl ⟨hstruck, rfl⟩), hreach⟩
    · have hpass := (htally.passesOn_iff hk).mpr ⟨hdestroyed, l, hl, rfl⟩
      exact ⟨_, Board.mem_deliveredBy_iff.mpr (.inr ⟨k, Array.mem_toList_iff.mpr hk, hadj, hpass⟩),
        (b.grid.overlaps_collapseSpan_iff l m).mpr hmeets⟩

/-- On a board whose levels do not share data, a level of the tile that is next is named
exactly if a span of the visit reaches it. -/
theorem Invariant.names_iff (hb : b.Consistent) (hg : b.grid.FitsKeys) (hu : b.Unshared)
    (h : s.Invariant b damage) (htally : s.Tally b) {v : Visit}
    (hv : s.stack.back? = some v) (hnew : v.cell ∉ s.visited) (hrun : run b s = some final)
    {position : Nat} {m : Level}
    (hm : b.LevelAt v.cell position m) (hstands : b.TakesStrikes m) :
    (∃ k ∈ final.strikes, k.cell = v.cell ∧ k.level = position) ↔
      ∃ span ∈ v.spans, m.overlaps span = true := by
  obtain ⟨tile, htile, hon, -⟩ := h.strikes_of_visit hb hg hv hrun
  obtain ⟨hposition, hlevel⟩ := hm.of_tile htile
  obtain ⟨d, hd, hstands, hkind⟩ := hstands
  -- The tile was not visited before, so the level has the data of before the event.
  have hentry : b.entryAt? v.cell position = some m.dataIndex.toNat :=
    Board.entryAt?_eq_some_iff_levelAt.mpr ⟨m, hm, rfl⟩
  have hdata : s.data[m.dataIndex.toNat]? = some d :=
    (htally.data_of_not_visited hu hnew hentry).trans hd
  constructor
  · rintro ⟨k, hk, hcell, rfl⟩
    have hmem : k ∈ b.strikesOf v tile s.data := by
      rw [← hon]
      simp [hk, hcell]
    obtain ⟨-, level, d', hlevel', -, hreach, -⟩ := Board.mem_strikesOf_iff_isStrikeOf.mp hmem
    rw [hlevel] at hlevel'
    cases hlevel'
    exact hreach
  · intro hreach
    let k : Strike := ⟨v.cell, position, wornIntegrity d.header.integrity,
      decide (wornIntegrity d.header.integrity < collapseThreshold)⟩
    have hmem : k ∈ b.strikesOf v tile s.data := Board.mem_strikesOf_iff_isStrikeOf.mpr
      ⟨hposition, m, d, hlevel, hdata, hreach, hstands, hkind, rfl⟩
    rw [← hon] at hmem
    exact ⟨k, Array.mem_toList_iff.mp (List.mem_filter.mp hmem).1, rfl, rfl⟩

end Cascade

namespace Board

variable {b : Board} {damage : Box}

/-- For each tile that an event visits there is a state in which it is next. The tiles
visited before it are those of the state. -/
theorem Outcome.exists_visit {visits : List Visit} {final : Cascade}
    (h : b.Outcome damage visits final) {n : Cell} (hn : n ∈ final.visited) :
    ∃ s v back, Relation.ReflTransGen (Cascade.Step b) (b.cascadeOf damage) s ∧
      s.stack.back? = some v ∧ v.cell = n ∧ Cascade.run b s = some final ∧
      final.visited.toList = s.visited.toList ++ n :: back := by
  rw [← Array.mem_toList_iff, visited_of_runs h.runs] at hn
  obtain ⟨v, hv, rfl⟩ := List.mem_map.mp hn
  obtain ⟨before, later, rfl⟩ := List.append_of_mem hv
  obtain ⟨s, hsteps, hrest⟩ := h.runs.split
  have hnext : s.stack.back? = some v := by
    cases hrest with
    | visit hnext => exact hnext
  exact ⟨s, v, later.map Visit.cell, hsteps, hnext, rfl,
    Cascade.run_eq_some_iff.mpr ⟨_, hrest⟩, hrest.visited⟩

/-- What a collapse reaches. Take a level that stands and is a floor or a wall, at any
position of any tile. An event names it in its report exactly if the box strikes its tile
and reaches it, or it does not start above the greatest height of the grid and meets a
level that the event destroyed in a tile next to its own, which was visited before. -/
theorem collapse_reaches {grid : Grid} {payloadSize : UInt32} {tiles : Array Tile}
    {levels : Array Level} {data : Array LevelData}
    (hparts : ofParts grid payloadSize tiles levels data = .ok b) (hg : b.grid.FitsKeys)
    (hu : b.Unshared) (damage : Box) :
    ∃ after report, b.damage? damage = some (after, report) ∧
      ∀ n position m, b.LevelAt n position m → b.TakesStrikes m →
        (report.Names n position ↔
          (b.IsStruckBy damage n ∧ m.overlaps ⟨damage.min.y, damage.max.y⟩ = true) ∨
            ∃ k ∈ report.strikes, k.destroyed = true ∧ k.cell.Adjoins n ∧
              report.VisitsBefore k.cell n ∧
              ∃ l, b.LevelAt k.cell k.level l ∧ l.Meets m ∧
                ¬ b.grid.maxHeight < m.baseHeight) := by
  have hb := Consistent.of_ofParts hparts
  obtain ⟨visits, final, h⟩ := hb.exists_outcome hu damage
  obtain ⟨hsteps, hdone⟩ := h.runs.steps
  have hfinal := Cascade.Invariant.of_reachable hb hg hsteps
  refine ⟨_, _, h.damage?_eq, ?_⟩
  intro n position m hm hstands
  by_cases hn : n ∈ final.visited
  · obtain ⟨s, v, back, hs, hv, rfl, hrun, hsplit⟩ := h.exists_visit hn
    have hinv := Cascade.Invariant.of_reachable hb hg hs
    have honce := (b.once_cascadeOf damage).steps hs
    have htally := (hb.tally_of_reachable hu hs).1
    obtain ⟨-, -, -, hearlier⟩ := hinv.strikes_of_visit hb hg hv hrun
    have hnodup : final.visited.toList.Nodup := by
      rw [visited_of_runs h.runs]
      exact nodup_visits h.runs
    show (∃ k ∈ final.strikes, k.cell = v.cell ∧ k.level = position) ↔ _
    rw [hinv.names_iff hb hg hu htally hv (honce.next_not_visited hv) hrun hm hstands,
      hinv.reached_iff htally hv m]
    -- The strikes of the state are those of the report on the tiles visited before.
    refine or_congr_right (exists_congr fun k => ?_)
    rw [DamageReport.visitsBefore_iff hnodup hsplit, Array.mem_toList_iff, ← hearlier k]
    constructor
    · rintro ⟨⟨hk, hbefore⟩, hdestroyed, hadj, hmeets⟩
      exact ⟨hk, hdestroyed, hadj, hbefore, hmeets⟩
    · rintro ⟨hk, hdestroyed, hadj, hbefore, hmeets⟩
      exact ⟨⟨hk, hbefore⟩, hdestroyed, hadj, hmeets⟩
  · -- A tile that was not visited is not struck by the box, and comes after no other one.
    constructor
    · rintro ⟨k, hk, rfl, -⟩
      exact absurd (hfinal.strikes_visited k hk) hn
    · rintro (⟨hstruck, -⟩ | ⟨k, -, -, -, ⟨front, back, hsplit, -⟩, -⟩)
      · exact absurd ((hfinal.spreadClosed hb hdone).struck n hstruck) hn
      · have hmem : n ∈ final.visited.toList := hsplit ▸ by simp
        exact absurd (Array.mem_toList_iff.mp hmem) hn

/-- The wall in the middle of the row falls before the right end is visited, and meets the
wall there. -/
theorem wallRow_collapse_reaches :
    ∃ after report, wallRow.damage? wallRowBox = some (after, report) ∧
      ¬ wallRow.IsStruckBy wallRowBox ⟨2, 0⟩ ∧ report.Names ⟨2, 0⟩ 0 := by
  obtain ⟨after, report, hdamage, hnames⟩ :=
    collapse_reaches ofParts_wallRow fitsKeys_wallRow
      (DisjointRuns.unshared (by decide) (by decide)) wallRowBox
  have hreport : (wallRow.damage? wallRowBox).map Prod.snd
      = some ⟨#[⟨1, 0⟩, ⟨2, 0⟩, ⟨0, 0⟩],
        #[⟨⟨1, 0⟩, 0, 0, true⟩, ⟨⟨2, 0⟩, 0, 0, true⟩, ⟨⟨0, 0⟩, 0, 0, true⟩]⟩ := by
    decide +kernel
  rw [hdamage] at hreport
  obtain rfl : report = _ := Option.some.inj hreport
  have hmissed : ¬ wallRow.IsStruckBy wallRowBox ⟨2, 0⟩ := fun h =>
    absurd (mem_struckCells_iff.mpr h) (by decide +kernel)
  have hright : wallRow.LevelAt ⟨2, 0⟩ 0 (wallRow.wall 2) := ⟨⟨1, 2⟩, rfl, by decide, rfl⟩
  have hmiddle : wallRow.LevelAt ⟨1, 0⟩ 0 (wallRow.wall 1) := ⟨⟨1, 1⟩, rfl, by decide, rfl⟩
  have hstands : wallRow.TakesStrikes (wallRow.wall 2) :=
    ⟨wallRow.standing, rfl, by decide, .inr rfl⟩
  refine ⟨after, _, hdamage, hmissed, (hnames _ _ _ hright hstands).mpr (.inr ?_)⟩
  exact ⟨⟨⟨1, 0⟩, 0, 0, true⟩, by simp, rfl, by decide, ⟨[⟨1, 0⟩], [⟨0, 0⟩], rfl, by simp⟩,
    wallRow.wall 1, hmiddle, by decide, by decide⟩

/-- Two tiles in a row. The wall of each goes from the height five to six, and the greatest
height of the grid is one. -/
def highRow : Board where
  grid := ⟨2, 1, .one, .zero, .zero, .one⟩
  payloadSize := 0
  tiles := #[⟨1, 0⟩, ⟨1, 1⟩]
  levels := #[wall 0, wall 1]
  data := #[wallRow.standing, wallRow.standing]
where
  wall (index : UInt32) : Level :=
    ⟨.facingUp ⟨0x40a00000⟩, .facingDown ⟨0x40c00000⟩, ⟨0x40a00000⟩, .one, index, 0⟩

/-- A box over the first wall. -/
def highRowBox : Box :=
  ⟨⟨.zero, ⟨0x40a00000⟩, .zero⟩, ⟨.half, ⟨0x40c00000⟩, .half⟩⟩

/-- The first wall falls and the second tile is visited after it. The walls have the same
heights, and still the second one is not named. -/
theorem highRow_wall_stands :
    ofParts highRow.grid highRow.payloadSize highRow.tiles highRow.levels highRow.data
        = .ok highRow ∧
      highRow.grid.FitsKeys ∧ highRow.Unshared ∧
      ∃ after report, highRow.damage? highRowBox = some (after, report) ∧
        (∃ k ∈ report.strikes, k.destroyed = true ∧ k.cell.Adjoins ⟨1, 0⟩ ∧
          report.VisitsBefore k.cell ⟨1, 0⟩ ∧ highRow.LevelAt k.cell k.level (highRow.wall 0)) ∧
        (highRow.wall 0).roofDelta.isFinite = true ∧ Single.zero ≤ (highRow.wall 0).roofDelta ∧
        highRow.LevelAt ⟨1, 0⟩ 0 (highRow.wall 1) ∧ highRow.TakesStrikes (highRow.wall 1) ∧
        (highRow.wall 0).Meets (highRow.wall 1) ∧ ¬ report.Names ⟨1, 0⟩ 0 := by
  have hreport : (highRow.damage? highRowBox).map Prod.snd
      = some ⟨#[⟨0, 0⟩, ⟨1, 0⟩], #[⟨⟨0, 0⟩, 0, 0, true⟩]⟩ := by
    decide +kernel
  obtain ⟨⟨after, report⟩, hdamage, rfl⟩ := Option.map_eq_some_iff.mp hreport
  have hfirst : highRow.LevelAt ⟨0, 0⟩ 0 (highRow.wall 0) := ⟨⟨1, 0⟩, rfl, by decide, rfl⟩
  have hlater : highRow.LevelAt ⟨1, 0⟩ 0 (highRow.wall 1) := ⟨⟨1, 1⟩, rfl, by decide, rfl⟩
  have hstands : highRow.TakesStrikes (highRow.wall 1) :=
    ⟨wallRow.standing, rfl, by decide, .inr rfl⟩
  refine ⟨rfl, ⟨by decide, by decide⟩, DisjointRuns.unshared (by decide) (by decide), after, _,
    hdamage, ?_, rfl, by decide, hlater, hstands, by decide, ?_⟩
  · exact ⟨⟨⟨0, 0⟩, 0, 0, true⟩, by simp, rfl, by decide, ⟨[⟨0, 0⟩], [], rfl, by simp⟩, hfirst⟩
  · -- The one strike of the report is on the first tile.
    rintro ⟨k, hk, hcell, -⟩
    simp at hk
    subst hk
    cases hcell

end Board

end Battlemap
