import Battlemap.Proofs.Damage.Ledger

/-!
# `Battlemap.Proofs.Damage.Event`: the invariant of a damage event

What was delivered to a tile during an event can be read off the box and
the strikes so far: the span of the box if the box strikes the tile, and
then the spans of the levels that were destroyed in tiles next to it
(`Board.deliveredBy`). `Cascade.Invariant` joins the ledger of these
deliveries with the wear of the data and with the reason why a tile was
touched at all, `Board.Spread`: damage spreads from the tiles under the
box to the tiles next to one in which a level was destroyed.

* `invariant_cascadeOf`: the first state of an event has the invariant.
* `Invariant.visit`: a visit keeps it, and appends exactly the strikes
  that its tile takes.
* `Invariant.of_reachable`: so every state of an event has it.
-/

set_option autoImplicit false

namespace Battlemap

namespace Board

/-- The span that a strike passes on: that of its level, if it destroyed
the level. -/
def spanOf (b : Board) (k : Strike) : Option Span := do
  let tile ← b.tiles[b.grid.tileIndex k.cell]?
  b.spanPassed tile k

/-- The spans that strikes pass on to a tile: those of the levels that
they destroyed in tiles next to it. -/
def passedTo (b : Board) (strikes : List Strike) (c : Cell) : List Span :=
  (strikes.filter fun k => decide (k.cell.Adjoins c)).filterMap b.spanOf

/-- The spans that an event with some strikes delivers to each tile. -/
def deliveredBy (b : Board) (damage : Box) (strikes : List Strike) : Deliveries := fun c =>
  (if c ∈ b.struckCells damage then [⟨damage.min.y, damage.max.y⟩] else []) ++ b.passedTo strikes c

/-- Where an event with some strikes spreads. -/
inductive Spread (b : Board) (damage : Box) (strikes : List Strike) : Cell → Prop where
  /-- It starts under the box. -/
  | struck {c : Cell} (hc : c ∈ b.struckCells damage) : Spread b damage strikes c
  /-- It goes on to the neighbours of a tile with a destroyed level. -/
  | next {k : Strike} {n : Cell} (hk : k ∈ strikes) (hdestroyed : k.destroyed = true)
      (hcell : Spread b damage strikes k.cell) (hn : n ∈ b.grid.neighbours k.cell) :
      Spread b damage strikes n

/-- More strikes spread an event no less far. -/
theorem Spread.mono {b : Board} {damage : Box} {strikes strikes' : List Strike}
    (hsub : ∀ k ∈ strikes, k ∈ strikes') {c : Cell} (h : b.Spread damage strikes c) :
    b.Spread damage strikes' c := by
  induction h with
  | struck hc => exact .struck hc
  | next hk hdestroyed _ hn ih => exact .next (hsub _ hk) hdestroyed ih hn

/-! ### What strikes pass on -/

variable {b : Board}

/-- What is passed to a cell by more strikes goes behind what was passed before. -/
theorem passedTo_append (strikes news : List Strike) (c : Cell) :
    b.passedTo (strikes ++ news) c = b.passedTo strikes c ++ b.passedTo news c := by
  simp [passedTo]

/-- The strikes of one visit pass on what the visit destroyed to the tiles
next to its own, and nothing to others. -/
theorem passedTo_of_visit {v : Visit} {tile : Tile} {news : List Strike}
    (htile : b.tiles[b.grid.tileIndex v.cell]? = some tile) (hcell : ∀ k ∈ news, k.cell = v.cell)
    (c : Cell) :
    b.passedTo news c
      = if v.cell.Adjoins c then news.filterMap (b.spanPassed tile) else [] := by
  have hspan : ∀ k ∈ news, b.spanOf k = b.spanPassed tile k := by
    intro k hk
    rw [spanOf, hcell k hk, htile]
    rfl
  unfold passedTo
  split
  case isTrue hadj =>
    rw [List.filter_eq_self.mpr fun k hk => by simpa [hcell k hk] using hadj]
    exact List.filterMap_congr hspan
  case isFalse hadj =>
    rw [List.filter_eq_nil_iff.mpr fun k hk => by simpa [hcell k hk] using hadj]
    rfl

/-- A visit delivers the spans of what it destroyed to the neighbours of its
tile, on top of what was delivered before. -/
theorem deliveredBy_append_strikesOf {damage : Box} {v : Visit} {tile : Tile}
    (htile : b.tiles[b.grid.tileIndex v.cell]? = some tile) (strikes : List Strike)
    (data : Array LevelData) {c : Cell} (hc : b.grid.contains c = true) :
    b.deliveredBy damage (strikes ++ b.strikesOf v tile data) c
      = (b.deliveredBy damage strikes).add ((b.strikesOf v tile data).filterMap (b.spanPassed tile))
          (b.grid.neighbours v.cell) c := by
  have hmem : c ∈ b.grid.neighbours v.cell ↔ v.cell.Adjoins c :=
    Grid.mem_neighbours_iff.trans (and_iff_right hc)
  simp only [deliveredBy, Deliveries.add, hmem]
  rw [passedTo_append, passedTo_of_visit htile fun k hk => cell_of_mem_strikesOf hk]
  by_cases hadj : v.cell.Adjoins c <;> simp [hadj]

/-- A strike that destroyed its level has a span to pass on. -/
theorem exists_spanOf {v : Visit} {tile : Tile} {data : Array LevelData} {p : Nat} {k : Strike}
    (htile : b.tiles[b.grid.tileIndex v.cell]? = some tile)
    (hk : b.strikeAt v tile data p = some k) (hdestroyed : k.destroyed = true) :
    ∃ span, b.spanOf k = some span := by
  obtain ⟨hcell, hlevel⟩ := of_strikeAt hk
  obtain ⟨level, -, hl, -⟩ := strikeAt_eq_some_iff.mp hk
  refine ⟨b.grid.collapseSpan level, ?_⟩
  simp [spanOf, spanPassed, hcell, htile, hdestroyed, hlevel, hl]

/-- Something is passed to a tile only by a strike that destroyed a level
next to it. -/
theorem exists_destroyed_of_passedTo {strikes : List Strike} {c : Cell}
    (h : b.passedTo strikes c ≠ []) :
    ∃ k ∈ strikes, k.destroyed = true ∧ k.cell.Adjoins c := by
  obtain ⟨span, hspan⟩ := List.exists_mem_of_ne_nil _ h
  obtain ⟨k, hk, hof⟩ := List.mem_filterMap.mp hspan
  obtain ⟨hmem, hadj⟩ := List.mem_filter.mp hk
  refine ⟨k, hmem, ?_, of_decide_eq_true hadj⟩
  simp only [spanOf, Option.bind_eq_bind, Option.bind_eq_some_iff] at hof
  obtain ⟨tile, -, hpassed⟩ := hof
  unfold spanPassed at hpassed
  split at hpassed
  case isTrue hdestroyed => exact hdestroyed
  case isFalse => cases hpassed

end Board

namespace Cascade

variable {b : Board} {damage : Box} {s : Cascade}

/-- The invariant of a damage event. -/
structure Invariant (b : Board) (damage : Box) (s : Cascade) : Prop where
  safe : s.Safe b
  ledger : s.Ledger b.grid (b.deliveredBy damage s.strikes.toList)
  strikes_visited : ∀ k ∈ s.strikes, k.cell ∈ s.visited
  passed_on : ∀ k ∈ s.strikes, k.destroyed = true → ∃ span, b.spanOf k = some span
  spread : ∀ c ∈ s.touched, b.Spread damage s.strikes.toList c

namespace Invariant

/-- A touched tile was reached by the box or by a destroyed level next to
it, and the tile of that level was visited before. -/
theorem reason (h : s.Invariant b damage) {t : Cascade}
    (hledger : t.Ledger b.grid (b.deliveredBy damage t.strikes.toList))
    (hvisited : ∀ k ∈ t.strikes, k.cell ∈ s.touched) (hsub : ∀ k ∈ s.strikes, k ∈ t.strikes)
    {c : Cell} (hc : c ∈ t.touched) : b.Spread damage t.strikes.toList c := by
  have hin := hledger.contains c hc
  have hsome := (hledger.arrived c hin).mpr hc
  by_cases hstruck : c ∈ b.struckCells damage
  · exact .struck hstruck
  · simp only [Board.deliveredBy, if_neg hstruck, List.nil_append] at hsome
    obtain ⟨k, hk, hdestroyed, hadj⟩ := Board.exists_destroyed_of_passedTo hsome
    have hspread := h.spread k.cell (hvisited k (Array.mem_toList_iff.mp hk))
    exact .next hk hdestroyed (hspread.mono fun k hk => by simpa using hsub k (by simpa using hk))
      (Grid.mem_neighbours_iff.mpr ⟨hin, hadj⟩)

/-- A visit keeps the invariant, and adds the strikes that its tile
takes. -/
theorem visit (hb : b.Consistent) (hg : b.grid.KeysApart) (h : s.Invariant b damage) {v : Visit}
    (hv : s.stack.back? = some v) :
    ∃ tile ∈ b.tiles, b.tiles[b.grid.tileIndex v.cell]? = some tile ∧
      ∃ t, (s.pop v).visit b v = some t ∧ t.Invariant b damage ∧
        t.visited = s.visited.push v.cell ∧
        t.strikes.toList = s.strikes.toList ++ b.strikesOf v tile s.data := by
  obtain ⟨tile, ht, htile, swept, hswept, hafter⟩ := h.safe.sweep hb hv
  obtain ⟨t, hvisit, hsafe⟩ := h.safe.visit hb hv
  obtain ⟨-, hvisited, hstrikes⟩ := visit_frame (s := s.pop v) hswept hvisit
  have hall : t.strikes.toList = s.strikes.toList ++ b.strikesOf v tile s.data := by
    rw [hstrikes, hafter.strikes]
  have hcollapsed : swept.collapsed
      = (b.strikesOf v tile s.data).filterMap (b.spanPassed tile) := by
    simpa using hafter.collapsed
  have hdelivered (c : Cell) (hc : b.grid.contains c = true) :
      b.deliveredBy damage t.strikes.toList c
        = (b.deliveredBy damage s.strikes.toList).add swept.collapsed
            (b.grid.neighbours v.cell) c := by
    rw [hall, hcollapsed, Board.deliveredBy_append_strikesOf htile _ _ hc]
  have hledger : t.Ledger b.grid (b.deliveredBy damage t.strikes.toList) := by
    -- Only a visit that destroyed something delivers to the neighbours.
    have hsettled := h.ledger.settle hg hv swept
    rcases visit_cases (s := s.pop v) hswept hvisit with ⟨hnone, rfl⟩ | ⟨hsome, hfold⟩
    · refine hsettled.congr fun c hc => ?_
      rw [hdelivered c hc, hnone]
      simp [Deliveries.add]
    · exact (hsettled.foldlM_reach hg hsome (Grid.nodup_neighbours _ _)
        (fun c hc => Grid.contains_of_mem_neighbours hc) hfold).congr hdelivered
  have hmem : ∀ k, k ∈ t.strikes ↔ k ∈ s.strikes ∨ k ∈ b.strikesOf v tile s.data := by
    intro k
    rw [← Array.mem_toList_iff, hall, List.mem_append, Array.mem_toList_iff]
  have hstruck : ∀ k ∈ t.strikes, k.cell ∈ s.visited ∨ k.cell = v.cell := fun k hk =>
    ((hmem k).mp hk).imp (h.strikes_visited k) Board.cell_of_mem_strikesOf
  refine ⟨tile, ht, htile, t, hvisit, ?_, hvisited, hall⟩
  refine ⟨hsafe, hledger, fun k hk => ?_, fun k hk hdestroyed => ?_, fun c hc => ?_⟩
  · rw [hvisited, Array.mem_push]
    exact hstruck k hk
  · rcases (hmem k).mp hk with hk | hk
    · exact h.passed_on k hk hdestroyed
    · exact Board.exists_spanOf htile (Board.mem_strikesOf_iff.mp hk).2 hdestroyed
  · refine h.reason hledger (fun k hk => ?_) (fun k hk => (hmem k).mpr (.inl hk)) hc
    rcases hstruck k hk with hk | hk
    · exact List.mem_append_left _ (Array.mem_toList_iff.mpr hk)
    · rw [hk]
      exact List.mem_append_right _
        (List.mem_map_of_mem (Array.mem_toList_iff.mpr (Array.mem_of_back? hv)))

/-- One visit keeps what holds during an event. -/
theorem step (hb : b.Consistent) (hg : b.grid.KeysApart) {t : Cascade} (h : s.Invariant b damage)
    (hstep : Step b s t) : t.Invariant b damage := by
  obtain ⟨v, hv, ht⟩ := hstep
  obtain ⟨tile, -, -, t', ht', hinv, -⟩ := h.visit hb hg hv
  rw [ht] at ht'
  cases ht'
  exact hinv

/-- So does any number of them. -/
theorem steps (hb : b.Consistent) (hg : b.grid.KeysApart) {t : Cascade} (h : s.Invariant b damage)
    (hsteps : Relation.ReflTransGen (Step b) s t) : t.Invariant b damage := by
  induction hsteps with
  | refl => exact h
  | tail _ hstep ih => exact ih.step hb hg hstep

end Invariant

end Cascade

/-! ### From the first state on -/

namespace Board

variable {b : Board}

/-- The first state of an event has the invariant. -/
theorem invariant_cascadeOf (hb : b.Consistent) (hg : b.grid.KeysApart) (damage : Box) :
    (b.cascadeOf damage).Invariant b damage := by
  let start : Cascade := ⟨b.data, #[], ∅, ∅, #[], #[]⟩
  let spans : List Span := [⟨damage.min.y, damage.max.y⟩]
  have hempty : start.Ledger b.grid fun _ => [] :=
    { contains := by simp [Cascade.touched, Cascade.waiting, start]
      nodup := by simp [Cascade.touched, Cascade.waiting, start]
      slot := by simp [Cascade.waiting, start]
      reached := by simp [Cascade.touched, Cascade.waiting, start]
      spans := by simp [start]
      arrived := by simp [Cascade.touched, Cascade.waiting, start] }
  obtain ⟨-, hvisited, hstrikes⟩ :
      _ ∧ (b.cascadeOf damage).visited = #[] ∧ (b.cascadeOf damage).strikes = #[] :=
    Cascade.foldl_push_frame spans (b.struckCells damage) start
  have hpushed := hempty.foldl_push hg (List.cons_ne_nil _ _ : spans ≠ [])
    (b.nodup_struckCells damage) fun c hc =>
      ⟨hb.contains_struckCells hc, by simp [Cascade.touched, Cascade.waiting, start]⟩
  have hledger : (b.cascadeOf damage).Ledger b.grid
      (b.deliveredBy damage (b.cascadeOf damage).strikes.toList) := by
    refine hpushed.congr fun c _ => ?_
    rw [hstrikes]
    simp [deliveredBy, passedTo, Deliveries.add]
  refine ⟨hb.safe_cascadeOf damage, hledger, by simp [hstrikes], by simp [hstrikes],
    fun c hc => .struck ?_⟩
  have hsome := (hledger.arrived c (hledger.contains c hc)).mpr hc
  -- Without strikes only the box delivers anything.
  by_contra hnot
  simp [deliveredBy, passedTo, hstrikes, hnot] at hsome

end Board

/-- Every state of an event has the invariant. -/
theorem Cascade.Invariant.of_reachable {b : Board} {damage : Box} {s : Cascade} (hb : b.Consistent)
    (hg : b.grid.FitsKeys) (h : Relation.ReflTransGen (Step b) (b.cascadeOf damage) s) :
    s.Invariant b damage :=
  (Board.invariant_cascadeOf hb hg.keysApart damage).steps hb hg.keysApart h

end Battlemap
