import Battlemap.Proofs.Damage.Spread

/-!
# `Battlemap.Proofs.Damage.Delivery`: what a visit tests and what it reports

`event_delivers` describes the visit that is taken off the stack in any
state of an event, on a board whose keys tell its tiles apart:

* its spans are that of the box, if the box strikes the tile, and those
  of the levels that were destroyed in the visited tiles next to it;
* the entries of the report for the tile are the levels that reach into
  one of these spans, stand, and are floors or walls, from the bottom up;
* wherever the visit looks up the slot of a neighbour, the slot is that
  of the visit of the neighbour that waits, and there is none if no such
  visit waits.

The first part is read off the ledger, where a waiting visit has what was
delivered to its tile. The report is only complete when the event ends;
its entries for a tile are those of one visit because later visits are to
other tiles (`Runs.exists_strikes`).
-/

set_option autoImplicit false

namespace Battlemap

/-- The entries of a report for a tile. -/
def DamageReport.strikesOn (r : DamageReport) (c : Cell) : List Strike :=
  r.strikes.toList.filter fun k => decide (k.cell = c)

namespace Board

variable {b : Board} {damage : Box}

/-- A strike destroyed a level, and the heights that the level passes on
are those of the span. -/
def PassesOn (b : Board) (k : Strike) (span : Span) : Prop :=
  k.destroyed = true ∧ ∃ tile level, b.tiles[b.grid.tileIndex k.cell]? = some tile ∧
    b.levels[tile.first + k.level]? = some level ∧
    span = ⟨level.baseHeight, level.topHeight.min b.grid.maxHeight⟩

/-- A strike passes on a span exactly if it destroyed its level, and then the one that the level
collapses with. -/
theorem spanOf_eq_some_iff {k : Strike} {span : Span} :
    b.spanOf k = some span ↔ b.PassesOn k span := by
  simp only [spanOf, spanPassed, Option.bind_eq_bind, Option.bind_eq_some_iff,
    Option.ite_none_right_eq_some, Option.map_eq_some_iff]
  constructor
  · rintro ⟨tile, htile, hdestroyed, level, hl, rfl⟩
    exact ⟨hdestroyed, tile, level, htile, hl, rfl⟩
  · rintro ⟨hdestroyed, tile, level, htile, hl, rfl⟩
    exact ⟨tile, htile, hdestroyed, level, hl, rfl⟩

/-- What some strikes deliver to a tile. -/
theorem mem_deliveredBy_iff {strikes : List Strike} {c : Cell} {span : Span} :
    span ∈ b.deliveredBy damage strikes c ↔
      (b.IsStruckBy damage c ∧ span = ⟨damage.min.y, damage.max.y⟩) ∨
        ∃ k ∈ strikes, k.cell.Adjoins c ∧ b.PassesOn k span := by
  have hbox : span ∈ (if c ∈ b.struckCells damage then [(⟨damage.min.y, damage.max.y⟩ : Span)]
      else []) ↔ b.IsStruckBy damage c ∧ span = ⟨damage.min.y, damage.max.y⟩ := by
    rw [← mem_struckCells_iff]
    split <;> simp [*]
  have hpassed : span ∈ b.passedTo strikes c ↔
      ∃ k ∈ strikes, k.cell.Adjoins c ∧ b.PassesOn k span := by
    simp only [passedTo, List.mem_filterMap, List.mem_filter, decide_eq_true_eq,
      spanOf_eq_some_iff, and_assoc]
  rw [deliveredBy, List.mem_append, hbox, hpassed]

/-- A visit strikes a level of its tile that stands in the data: a span of
the visit reaches the level, which is a floor or a wall. The level loses
a point of integrity and is destroyed below the threshold. -/
def IsStrikeOf (b : Board) (v : Visit) (tile : Tile) (data : Array LevelData) (k : Strike) : Prop :=
  k.level < tile.count ∧ ∃ level d, b.levels[tile.first + k.level]? = some level ∧
    data[level.dataIndex.toNat]? = some d ∧ (∃ span ∈ v.spans, level.overlaps span = true) ∧
    d.header.isDestroyed = false ∧ (d.header.kind = .floor ∨ d.header.kind = .wall) ∧
    k = ⟨v.cell, k.level, wornIntegrity d.header.integrity,
      decide (wornIntegrity d.header.integrity < collapseThreshold)⟩

/-- A visit strikes exactly the vulnerable levels that one of its spans meets. -/
theorem mem_strikesOf_iff_isStrikeOf {v : Visit} {tile : Tile} {data : Array LevelData}
    {k : Strike} : k ∈ b.strikesOf v tile data ↔ b.IsStrikeOf v tile data k :=
  mem_strikesOf_iff.trans (and_congr_right fun _ => strikeAt_eq_some_iff)

end Board

namespace Cascade

variable {b : Board} {damage : Box} {s : Cascade}

/-- A run from a safe state adds strikes on the tiles that it visits. -/
theorem Runs.exists_strikes (hb : b.Consistent) {final : Cascade} {visits : List Visit}
    (hsafe : s.Safe b) (h : Runs b s visits final) :
    ∃ later, final.strikes.toList = s.strikes.toList ++ later ∧
      ∀ k ∈ later, k.cell ∈ visits.map Visit.cell := by
  induction h with
  | done => exact ⟨[], by simp, nofun⟩
  | @visit s t final v visits hnext ht _ ih =>
    obtain ⟨later, hfinal, hlater⟩ := ih (hsafe.step hb ⟨v, hnext, ht⟩)
    obtain ⟨tile, -, -, swept, hswept, hafter⟩ := hsafe.sweep hb hnext
    obtain ⟨-, -, hstrikes⟩ := visit_frame (s := s.pop v) hswept ht
    refine ⟨b.strikesOf v tile s.data ++ later, ?_, ?_⟩
    · rw [hfinal, hstrikes, hafter.strikes, List.append_assoc]
    · intro k hk
      rw [List.map_cons, List.mem_cons]
      rcases List.mem_append.mp hk with hk | hk
      · exact .inl (Board.cell_of_mem_strikesOf hk)
      · exact .inr (hlater k hk)

/-- The visit `v` of a state looks up, in the state `u`, the slot of the
tile `n`: it destroyed a level and has already passed the spans on to the
neighbours before `n`. -/
def LooksUp (b : Board) (s : Cascade) (v : Visit) (u : Cascade) (n : Cell) : Prop :=
  ∃ swept passed rest, sweep b v s.data s.strikes = some swept ∧ swept.collapsed ≠ [] ∧
    b.grid.neighbours v.cell = passed ++ n :: rest ∧
    passed.foldlM (reach swept.collapsed) ((s.pop v).settle v swept) = some u

/-- Where a slot is looked up, the table has the slot of the tile that
waits. -/
theorem Invariant.slot_of_looksUp (hg : b.grid.FitsKeys) (h : s.Invariant b damage) {v : Visit}
    (hv : s.stack.back? = some v) {u : Cascade} {n : Cell} (hlook : LooksUp b s v u n)
    (slot : Nat) :
    u.pending[n.key]? = some slot ↔ ∃ w, u.stack[slot]? = some w ∧ w.cell = n := by
  obtain ⟨swept, passed, rest, -, hsome, hsplit, hu⟩ := hlook
  have hnodup := Grid.nodup_neighbours b.grid v.cell
  have hin (c : Cell) (hc : c ∈ b.grid.neighbours v.cell) := Grid.contains_of_mem_neighbours hc
  rw [hsplit] at hnodup hin
  -- The deliveries up to `n` keep the ledger, and its slots are right.
  have hledger := (h.ledger.settle hg.keysApart hv swept).foldlM_reach hg.keysApart hsome
    (List.nodup_append.mp hnodup).1 (fun c hc => hin c (List.mem_append_left _ hc)) hu
  rw [hledger.slot n (hin n (by simp)), waiting, List.getElem?_map, Array.getElem?_toList,
    Option.map_eq_some_iff]

/-- The strikes on a tile are those of its one visit: none was made before
it, and none is made after it. -/
theorem Invariant.strikes_of_visit (hb : b.Consistent) (hg : b.grid.FitsKeys)
    (h : s.Invariant b damage) {v : Visit} (hv : s.stack.back? = some v) {final : Cascade}
    (hrun : run b s = some final) :
    ∃ tile, b.tiles[b.grid.tileIndex v.cell]? = some tile ∧
      final.strikes.toList.filter (fun k => decide (k.cell = v.cell))
        = b.strikesOf v tile s.data ∧
      ∀ k, k ∈ final.strikes ∧ k.cell ∈ s.visited ↔ k ∈ s.strikes := by
  obtain ⟨tile, -, htile, t, ht, hinv, hvisited, hstrikes⟩ := h.visit hb hg.keysApart hv
  obtain ⟨visits, hruns⟩ := run_eq_some_iff.mp ((run_eq_of_step ⟨v, hv, ht⟩).symm.trans hrun)
  obtain ⟨later, hfinal, hlater⟩ := hruns.exists_strikes hb hinv.safe
  rw [hstrikes, List.append_assoc] at hfinal
  -- No tile is visited twice, also not by the visits to come.
  have hnodup : (s.visited.toList ++ v.cell :: visits.map Visit.cell).Nodup := by
    have hall := (hinv.steps hb hg.keysApart hruns.steps.1).ledger.nodup
    rw [touched, hruns.visited, hvisited] at hall
    simpa using (List.nodup_append.mp hall).1
  obtain ⟨-, hnext, hdisjoint⟩ := List.nodup_append.mp hnodup
  have hunvisited (c : Cell) (hc : c ∈ v.cell :: visits.map Visit.cell) : c ∉ s.visited :=
    fun hmem => hdisjoint c (Array.mem_toList_iff.mpr hmem) c hc rfl
  have hearlier : ∀ k ∈ s.strikes, k.cell ≠ v.cell := by
    intro k hk heq
    exact hunvisited v.cell (by simp) (heq ▸ h.strikes_visited k hk)
  have hown : ∀ k ∈ b.strikesOf v tile s.data, k.cell = v.cell := fun k hk =>
    Board.cell_of_mem_strikesOf hk
  have hfresh : ∀ k ∈ later, k.cell ∉ s.visited ∧ k.cell ≠ v.cell := by
    intro k hk
    refine ⟨hunvisited k.cell (List.mem_cons_of_mem _ (hlater k hk)), fun heq => ?_⟩
    exact (List.nodup_cons.mp hnext).1 (heq ▸ hlater k hk)
  refine ⟨tile, htile, ?_, fun k => ?_⟩
  · rw [hfinal, List.filter_append, List.filter_append,
      List.filter_eq_nil_iff.mpr (by simpa using hearlier),
      List.filter_eq_self.mpr (by simpa using hown),
      List.filter_eq_nil_iff.mpr (by simpa using fun k hk => (hfresh k hk).2)]
    simp
  · rw [← Array.mem_toList_iff, hfinal, List.mem_append, List.mem_append, Array.mem_toList_iff]
    constructor
    · rintro ⟨hk | hk | hk, hmem⟩
      · exact hk
      · exact absurd (hown k hk ▸ hmem) (hunvisited v.cell (by simp))
      · exact absurd hmem (hfresh k hk).1
    · exact fun hk => ⟨.inl hk, h.strikes_visited k hk⟩

end Cascade

namespace Board

variable {b : Board}

/-- No span is lost or goes to the wrong tile. Take any state of an event
and the visit `v` that is next. Its spans are that of the box, if the box
strikes the tile, and those of the levels that the event destroys in the
neighbours visited before. The strikes that the report has for the tile
are, from the bottom up, exactly those that `v` makes on the data of the
state. The slot that `v` looks up for a neighbour is that of the
neighbour's waiting visit. -/
theorem event_delivers {grid : Grid} {payloadSize : UInt32} {tiles : Array Tile}
    {levels : Array Level} {data : Array LevelData}
    (hparts : ofParts grid payloadSize tiles levels data = .ok b) (hg : b.grid.FitsKeys)
    (damage : Box) {s : Cascade} {v : Visit}
    (hs : Relation.ReflTransGen (Cascade.Step b) (b.cascadeOf damage) s)
    (hv : s.stack.back? = some v) :
    ∃ after report tile, b.damage? damage = some (after, report) ∧
      b.tiles[b.grid.tileIndex v.cell]? = some tile ∧
      (∀ span, span ∈ v.spans ↔
        (b.IsStruckBy damage v.cell ∧ span = ⟨damage.min.y, damage.max.y⟩) ∨
          ∃ k ∈ report.strikes, k.cell ∈ s.visited ∧ k.cell.Adjoins v.cell ∧ b.PassesOn k span) ∧
      (report.strikesOn v.cell).Pairwise (fun j k => j.level < k.level) ∧
      (∀ k, k ∈ report.strikesOn v.cell ↔ b.IsStrikeOf v tile s.data k) ∧
      ∀ u n, Cascade.LooksUp b s v u n → ∀ slot,
        u.pending[n.key]? = some slot ↔ ∃ w, u.stack[slot]? = some w ∧ w.cell = n := by
  have hb := Consistent.of_ofParts hparts
  have hinv := Cascade.Invariant.of_reachable hb hg hs
  obtain ⟨final, hrun, -⟩ := hinv.safe.run hb
  obtain ⟨tile, htile, hon, hearlier⟩ := hinv.strikes_of_visit hb hg hv hrun
  -- The ledger says what was delivered to the tile of the next visit.
  have hspans : v.spans = b.deliveredBy damage s.strikes.toList v.cell :=
    hinv.ledger.spans v (Array.mem_of_back? hv)
  refine ⟨{ b with data := final.data }, ⟨final.visited, final.strikes⟩, tile, ?_, htile,
    fun span => ?_, ?_, fun k => ?_, fun u n hlook => hinv.slot_of_looksUp hg hv hlook⟩
  · rw [damage?, Cascade.run_eq_of_steps hs, hrun, Option.map_some]
  · rw [hspans, mem_deliveredBy_iff]
    refine or_congr_right (exists_congr fun k => ?_)
    rw [Array.mem_toList_iff, ← hearlier k, and_assoc]
  · rw [DamageReport.strikesOn, hon]
    exact pairwise_strikesOf b v tile s.data
  · rw [DamageReport.strikesOn, hon]
    exact mem_strikesOf_iff_isStrikeOf

/-- In the row of walls, the visit of the last tile has the span that the strike on its
neighbour passes on. -/
theorem wallRow_delivers :
    ∃ s, Relation.ReflTransGen (Cascade.Step wallRow) (wallRow.cascadeOf wallRowBox) s ∧
      s.stack.back? = some ⟨⟨2, 0⟩, [⟨.zero, .one⟩]⟩ ∧
      ∃ after report, wallRow.damage? wallRowBox = some (after, report) ∧
        ∃ k ∈ report.strikes, k.cell ∈ s.visited ∧ k.cell.Adjoins ⟨2, 0⟩ ∧
          wallRow.PassesOn k ⟨.zero, .one⟩ := by
  have hfirst : (wallRow.cascadeOf wallRowBox).stack.back? = some ⟨⟨1, 0⟩, [⟨.zero, .one⟩]⟩ := by
    decide +kernel
  -- The wall in the middle falls, and the right end of the row is next.
  have hsecond : (((wallRow.cascadeOf wallRowBox).pop ⟨⟨1, 0⟩, [⟨.zero, .one⟩]⟩).visit wallRow
      ⟨⟨1, 0⟩, [⟨.zero, .one⟩]⟩).bind (fun s => s.stack.back?)
        = some ⟨⟨2, 0⟩, [⟨.zero, .one⟩]⟩ := by
    decide +kernel
  obtain ⟨s, hs, hv⟩ := Option.bind_eq_some_iff.mp hsecond
  have hsteps : Relation.ReflTransGen (Cascade.Step wallRow) (wallRow.cascadeOf wallRowBox) s :=
    .single ⟨_, hfirst, hs⟩
  obtain ⟨after, report, tile, hdamage, -, hspans, -⟩ :=
    event_delivers ofParts_wallRow fitsKeys_wallRow wallRowBox hsteps hv
  have hmissed : ¬ wallRow.IsStruckBy wallRowBox ⟨2, 0⟩ := fun h =>
    absurd (mem_struckCells_iff.mpr h) (by decide +kernel)
  refine ⟨s, hsteps, hv, after, report, hdamage, ?_⟩
  rcases (hspans ⟨.zero, .one⟩).mp (by simp) with ⟨hstruck, -⟩ | hpassed
  · exact absurd hstruck hmissed
  · exact hpassed

end Board

end Battlemap
