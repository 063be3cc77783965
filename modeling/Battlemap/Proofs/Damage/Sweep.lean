import Battlemap.Proofs.Damage.Wear

/-!
# `Battlemap.Proofs.Damage.Sweep`: one visit to one tile

What a sweep over the levels of a tile does, said without the loop:

* `Board.strikeAt` is the strike that the level at a position takes, if
  it takes one, as a function of the data before the sweep;
  `strikeAt_eq_some_iff` spells out when it does.
* `sweep_eq`: on a consistent board a sweep over a tile meets no index
  outside its array, appends these strikes in ascending order, collects
  the spans of the destroyed levels, and wears the data.

The sweep changes the data while it runs, and `strikeAt` reads the data
before. The two agree since no two positions of one tile share data.
-/

set_option autoImplicit false

namespace Battlemap

namespace Board

/-- The strike that a visit gives to the level at a position of its tile. -/
def strikeAt (b : Board) (v : Visit) (tile : Tile) (data : Array LevelData) (position : Nat) :
    Option Strike := do
  let level ← b.levels[tile.first + position]?
  let d ← data[level.dataIndex.toNat]?
  if v.hits level && d.header.isVulnerable then
    some ⟨v.cell, position, d.header.struck.integrity, d.header.struck.isDestroyed⟩
  else none

/-- The span that a struck level of a tile passes on: its own, if the
strike destroyed it. -/
def spanPassed (b : Board) (tile : Tile) (k : Strike) : Option Span :=
  if k.destroyed then b.levels[tile.first + k.level]?.map b.grid.collapseSpan else none

/-- A level is struck if a span of the visit reaches it, it stands, and
it is a floor or a wall. It then has one point of integrity less, and is
destroyed if that is below the threshold. -/
theorem strikeAt_eq_some_iff {b : Board} {v : Visit} {tile : Tile} {data : Array LevelData}
    {position : Nat} {k : Strike} :
    b.strikeAt v tile data position = some k ↔
      ∃ level d, b.levels[tile.first + position]? = some level ∧
        data[level.dataIndex.toNat]? = some d ∧ (∃ span ∈ v.spans, level.overlaps span = true) ∧
        d.header.isDestroyed = false ∧ (d.header.kind = .floor ∨ d.header.kind = .wall) ∧
        k = ⟨v.cell, position, wornIntegrity d.header.integrity,
          decide (wornIntegrity d.header.integrity < collapseThreshold)⟩ := by
  simp only [strikeAt, Option.bind_eq_bind, Option.bind_eq_some_iff]
  refine exists_congr fun level => ?_
  rw [exists_and_left]
  refine and_congr_right fun _ => exists_congr fun d => and_congr_right fun _ => ?_
  rw [Option.ite_none_right_eq_some, Bool.and_eq_true, Option.some.injEq]
  have hhits : v.hits level = true ↔ ∃ span ∈ v.spans, level.overlaps span = true := by
    simp [Visit.hits]
  -- What is left are the conditions on the data, which are those under which a strike takes
  -- effect.
  rw [hhits, and_assoc]
  refine and_congr_right fun _ => ?_
  constructor
  · rintro ⟨hv, rfl⟩
    rw [LevelHeader.isDestroyed_struck hv, LevelHeader.integrity_struck]
    exact ⟨(LevelHeader.isVulnerable_iff.mp hv).1, (LevelHeader.isVulnerable_iff.mp hv).2, rfl⟩
  · rintro ⟨hstands, hkind, rfl⟩
    have hv := LevelHeader.isVulnerable_iff.mpr ⟨hstands, hkind⟩
    rw [LevelHeader.isDestroyed_struck hv, LevelHeader.integrity_struck]
    exact ⟨hv, rfl⟩

/-- Every strike is one on the tile of the visit, at the position it is
asked for. -/
theorem of_strikeAt {b : Board} {v : Visit} {tile : Tile} {data : Array LevelData}
    {position : Nat} {k : Strike} (h : b.strikeAt v tile data position = some k) :
    k.cell = v.cell ∧ k.level = position := by
  obtain ⟨_, _, -, -, -, -, -, rfl⟩ := strikeAt_eq_some_iff.mp h
  exact ⟨rfl, rfl⟩

/-- The strikes that a visit gives to the levels of its tile, from the
bottom up. -/
def strikesOf (b : Board) (v : Visit) (tile : Tile) (data : Array LevelData) : List Strike :=
  (List.range tile.count).filterMap (b.strikeAt v tile data)

section
variable {b : Board} {v : Visit} {tile : Tile} {data : Array LevelData}

/-- The strikes of a visit are those at the positions of its tile. -/
theorem mem_strikesOf_iff {k : Strike} :
    k ∈ b.strikesOf v tile data ↔
      k.level < tile.count ∧ b.strikeAt v tile data k.level = some k := by
  rw [strikesOf, List.mem_filterMap]
  constructor
  · rintro ⟨p, hp, hk⟩
    obtain ⟨-, rfl⟩ := of_strikeAt hk
    exact ⟨List.mem_range.mp hp, hk⟩
  · rintro ⟨hlt, hk⟩
    exact ⟨k.level, List.mem_range.mpr hlt, hk⟩

/-- A visit strikes levels of its own cell only. -/
theorem cell_of_mem_strikesOf {k : Strike} (h : k ∈ b.strikesOf v tile data) : k.cell = v.cell :=
  (of_strikeAt (mem_strikesOf_iff.mp h).2).1

/-- A visit strikes its levels from the bottom up. -/
theorem pairwise_strikesOf (b : Board) (v : Visit) (tile : Tile) (data : Array LevelData) :
    (b.strikesOf v tile data).Pairwise fun j k => j.level < k.level := by
  refine List.pairwise_filterMap.mpr (List.pairwise_lt_range.imp fun hlt j hj k hk => ?_)
  rw [(of_strikeAt hj).2, (of_strikeAt hk).2]
  exact hlt

end

end Board

/-! ### One level -/

namespace Sweep

/-- The state of a sweep after the given strikes on a tile. -/
structure After (b : Board) (tile : Tile) (start : Sweep) (struck : List Strike)
    (final : Sweep) : Prop where
  strikes : final.strikes.toList = start.strikes.toList ++ struck
  collapsed : final.collapsed = start.collapsed ++ struck.filterMap (b.spanPassed tile)
  wear : DataWearsTo start.data final.data

/-- Without a strike nothing has changed. -/
theorem After.refl (b : Board) (tile : Tile) (start : Sweep) : After b tile start [] start where
  strikes := by simp
  collapsed := by simp
  wear := .refl _

/-- What two stretches of a sweep do adds up. -/
theorem After.trans {b : Board} {tile : Tile} {first second third : Sweep}
    {struck struck' : List Strike} (h : After b tile first struck second)
    (h' : After b tile second struck' third) : After b tile first (struck ++ struck') third where
  strikes := by rw [h'.strikes, h.strikes, List.append_assoc]
  collapsed := by rw [h'.collapsed, h.collapsed, List.filterMap_append, List.append_assoc]
  wear := h.wear.trans h'.wear

/-- Striking the level at a position adds its strike, if it takes one, and
touches no data but its own. -/
theorem after_strikeLevel {b : Board} {v : Visit} {tile : Tile} {sweep : Sweep} {position : Nat}
    {level : Level} (hl : b.levels[tile.first + position]? = some level) :
    After b tile sweep (b.strikeAt v tile sweep.data position).toList
        (sweep.strikeLevel b.grid v position level) ∧
      ∀ i, i ≠ level.dataIndex.toNat →
        (sweep.strikeLevel b.grid v position level).data[i]? = sweep.data[i]? := by
  -- Three things can keep the strike off: no span reaches the level, it has no data, or the data
  -- takes no strikes.
  cases hhits : v.hits level with
  | false => simp [strikeLevel, Board.strikeAt, hl, hhits, After.refl]
  | true =>
    cases hd : sweep.data[level.dataIndex.toNat]? with
    | none => simp [strikeLevel, Board.strikeAt, hl, hhits, hd, After.refl]
    | some d =>
      cases hv : d.header.isVulnerable with
      | false => simp [strikeLevel, Board.strikeAt, hl, hhits, hd, hv, After.refl]
      | true =>
        simp only [strikeLevel, Board.strikeAt, hl, hhits, hd, hv, Option.bind_eq_bind,
          Option.bind_some, Bool.and_self, if_true, Option.toList_some]
        refine ⟨⟨by simp, ?_, .modify hd hv⟩, fun i hi => ?_⟩
        · cases hc : d.header.struck.isDestroyed <;> simp [Board.spanPassed, hl]
        · simp [Array.getElem?_modify, Ne.symm hi]

/-! ### A whole tile -/

/-- Striking the levels at some positions of a tile of a consistent board.
The induction is over the positions; the sweep so far has struck none of
those to come, so each is struck according to the data at the start. -/
theorem foldlM_strike {b : Board} {v : Visit} {tile : Tile} (ht : tile ∈ b.tiles) :
    ∀ (positions : List Nat) (start : Sweep), positions.Nodup →
      (∀ p ∈ positions, p < tile.count) → Board.Consistent { b with data := start.data } →
      ∃ final, positions.foldlM (Sweep.strike b v tile) start = some final ∧
        After b tile start (positions.filterMap (b.strikeAt v tile start.data)) final := by
  intro positions
  induction positions with
  | nil => intro start _ _ _; exact ⟨start, rfl, .refl b tile start⟩
  | cons p positions ih =>
    intro start hnodup hlt hb
    obtain ⟨hp, hnodup⟩ := List.nodup_cons.mp hnodup
    obtain ⟨level, hl⟩ : ∃ level, b.levels[tile.first + p]? = some level :=
      hb.level ht (hlt p (by simp))
    obtain ⟨hstep, hframe⟩ := @after_strikeLevel b v tile start p level hl
    -- The data of the levels to come is still that of the start.
    have hsame : positions.filterMap (b.strikeAt v tile (start.strikeLevel b.grid v p level).data)
        = positions.filterMap (b.strikeAt v tile start.data) := by
      refine List.filterMap_congr fun q hq => ?_
      cases hm : b.levels[tile.first + q]? with
      | none => simp [Board.strikeAt, hm]
      | some m =>
        have hne : m.dataIndex.toNat ≠ level.dataIndex.toNat := by
          intro he
          have hpq := hb.dataIndex_inj ht (hlt p (by simp)) (hlt q (by simp [hq])) hl hm
            (UInt32.toNat_inj.mp he.symm)
          exact hp (hpq ▸ hq)
        simp [Board.strikeAt, hm, hframe _ hne]
    obtain ⟨final, hrun, hafter⟩ := ih (start.strikeLevel b.grid v p level) hnodup
      (fun q hq => hlt q (by simp [hq])) (Board.Consistent.worn hb hstep.wear)
    refine ⟨final, ?_, ?_⟩
    · rw [List.foldlM_cons, Sweep.strike, hl]
      exact hrun
    · have hcons : (p :: positions).filterMap (b.strikeAt v tile start.data)
          = (b.strikeAt v tile start.data p).toList
            ++ positions.filterMap (b.strikeAt v tile start.data) := by
        cases hk : b.strikeAt v tile start.data p <;> simp [hk]
      rw [hcons, ← hsame]
      exact hstep.trans hafter

end Sweep

/-- A sweep over a tile of a consistent board. -/
theorem Cascade.sweep_eq {b : Board} {v : Visit} {tile : Tile} {data : Array LevelData}
    (strikes : Array Strike) (hb : Board.Consistent { b with data := data }) (ht : tile ∈ b.tiles)
    (htile : b.tiles[b.grid.tileIndex v.cell]? = some tile) :
    ∃ swept, Cascade.sweep b v data strikes = some swept ∧
      Sweep.After b tile ⟨data, [], strikes⟩ (b.strikesOf v tile data) swept := by
  obtain ⟨swept, hrun, hafter⟩ := Sweep.foldlM_strike (v := v) ht (List.range tile.count)
    ⟨data, [], strikes⟩ List.nodup_range (fun p hp => List.mem_range.mp hp) hb
  refine ⟨swept, ?_, hafter⟩
  rw [Cascade.sweep, htile]
  exact hrun

end Battlemap
