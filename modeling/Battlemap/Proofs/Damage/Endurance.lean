import Battlemap.Proofs.Damage.Spread
import Battlemap.Proofs.Lookup
import Battlemap.Proofs.Obtained

/-!
# `Battlemap.Proofs.Damage.Endurance`: a map under any number of events

`Board.damageAll?` applies events one after the other. One event only
wears the data of a consistent board, which leaves the board consistent
(`Consistent.exists_damage?`), so any number of them does
(`Consistent.exists_damageAll?`). `events_endure` spells out what this
means for every obtained board: the check of the map still finds
nothing, nothing but integrity and the destroyed flag changes, what was
destroyed stays as it was, and no operation meets an index outside its
array. Neither the size of the grid nor data that is shared between
tiles matters for this.
-/

set_option autoImplicit false

namespace Battlemap

namespace Board

/-- Apply damage events in order; `none` if one of them comes upon an
index that is not in its array. -/
def damageAll? (b : Board) (events : List Box) : Option Board :=
  events.foldlM (fun b damage => (b.damage? damage).map Prod.fst) b

variable {b : Board}

/-- An event on a consistent board succeeds and wears the data. -/
theorem Consistent.exists_damage? (hb : b.Consistent) (damage : Box) :
    ∃ data report, b.damage? damage = some ({ b with data := data }, report) ∧
      DataWearsTo b.data data := by
  obtain ⟨final, hrun, hsafe⟩ := (hb.safe_cascadeOf damage).run hb
  exact ⟨final.data, _, by rw [damage?, hrun, Option.map_some], hsafe.wear⟩

/-- Any number of events on a consistent board succeed and wear the
data. -/
theorem Consistent.exists_damageAll? (hb : b.Consistent) (events : List Box) :
    ∃ data, b.damageAll? events = some { b with data := data } ∧ DataWearsTo b.data data := by
  induction events generalizing b with
  | nil => exact ⟨b.data, rfl, .refl b.data⟩
  | cons damage events ih =>
    -- The first event leaves a consistent board to the others.
    obtain ⟨data, report, hfirst, hwear⟩ := hb.exists_damage? damage
    obtain ⟨data', hrest, hwear'⟩ := ih (hb.worn hwear)
    refine ⟨data', ?_, hwear.trans hwear'⟩
    rw [damageAll?, List.foldlM_cons, hfirst]
    exact hrest

/-- On a consistent board the tile of every cell of the grid, the levels of
its run and their data are in their arrays. -/
theorem Consistent.exists_records (hb : b.Consistent) {c : Cell} (hc : b.grid.contains c = true) :
    ∃ tile, b.tiles[b.grid.tileIndex c]? = some tile ∧ ∀ position < tile.count,
      ∃ (level : Level) (d : LevelData), b.levels[tile.first + position]? = some level ∧
        b.data[level.dataIndex.toNat]? = some d := by
  obtain ⟨tile, ht, htile⟩ := hb.tile hc
  refine ⟨tile, htile, fun position hp => ?_⟩
  obtain ⟨level, hl⟩ := hb.level ht hp
  obtain ⟨d, hd, -⟩ := hb.hasData tile ht position hp level hl
  exact ⟨level, d, hl, hd⟩

/-- What any number of events leave of an obtained board. Take the board
`mid` in the middle of the events and the board `after` at their end.
Then `after` passes the check, and differs from the first board in the
integrity and the destroyed flag of data only. From `mid` on, what is
destroyed stays destroyed, and data that strikes have no effect on stays
as it is. No operation on `after` meets an index outside its array. -/
theorem events_endure (hb : b.Obtained) (earlier later : List Box) :
    ∃ mid after, b.damageAll? earlier = some mid ∧ mid.damageAll? later = some after ∧
      after.defect? = none ∧
      (after.grid = b.grid ∧ after.payloadSize = b.payloadSize ∧ after.tiles = b.tiles ∧
        after.levels = b.levels ∧ after.data.size = b.data.size) ∧
      (∀ (i : Nat) (d : LevelData), b.data[i]? = some d → ∃ m e : LevelData,
        mid.data[i]? = some m ∧ after.data[i]? = some e ∧
        e = { d with header.flags := e.header.flags, header.integrity := e.header.integrity } ∧
        e.header.flags ||| destroyedFlag = d.header.flags ||| destroyedFlag ∧
        (m.header.isDestroyed = true → e.header.isDestroyed = true) ∧
        (m.header.isDestroyed = true ∨ m.header.kind = .world ∨ m.header.kind = .notStructural →
          e = m)) ∧
      (∀ c, ∃ levels, after.levelsAt? c = some levels) ∧
      (∀ q, ∃ answer, after.lookup? q = some answer) ∧
      (∀ damage, ∃ next report, after.damage? damage = some (next, report)) ∧
      ∀ c, after.grid.contains c = true → ∃ tile,
        after.tiles[after.grid.tileIndex c]? = some tile ∧ ∀ position < tile.count,
          ∃ (level : Level) (d : LevelData), after.levels[tile.first + position]? = some level ∧
            after.data[level.dataIndex.toNat]? = some d := by
  -- The wear up to the middle and the wear from there on compose, and each of them keeps the
  -- board consistent.
  obtain ⟨data, hearlier, hwear⟩ := hb.consistent.exists_damageAll? earlier
  have hmid := hb.consistent.worn hwear
  obtain ⟨data', hlater, hwear'⟩ := hmid.exists_damageAll? later
  have hafter := hmid.worn hwear'
  refine ⟨_, _, hearlier, hlater, defect?_eq_none_iff.mpr hafter,
    ⟨rfl, rfl, rfl, rfl, (hwear.trans hwear').size⟩, fun i d hd => ?_, hafter.exists_levelsAt?,
    hafter.exists_lookup?, fun damage => ?_, fun c hc => hafter.exists_records hc⟩
  · obtain ⟨m, hm, hdm⟩ := hwear.entry i d hd
    obtain ⟨e, he, hme⟩ := hwear'.entry i m hm
    exact ⟨m, e, hm, he, (hdm.trans hme).same, (hdm.trans hme).flags, hme.destroyed,
      fun himmune => hme.immune (LevelHeader.isVulnerable_eq_false_iff.mpr himmune)⟩
  · obtain ⟨_, report, hdamage, -⟩ := hafter.exists_damage? damage
    exact ⟨_, report, hdamage⟩

/-- Two events on the row of walls leave a consistent board, and what the first of them
destroyed stays as it is. -/
theorem wallRow_endures :
    ∃ mid after, wallRow.damageAll? [wallRowBox] = some mid ∧
      mid.damageAll? [wallRowBox] = some after ∧ after.defect? = none ∧
      after.levels = wallRow.levels ∧
      ∃ m e : LevelData, mid.data[1]? = some m ∧ after.data[1]? = some e ∧
        (m.header.isDestroyed = true → e = m) := by
  obtain ⟨mid, after, hearlier, hlater, hcheck, ⟨-, -, -, hlevels, -⟩, hdata, -⟩ :=
    events_endure (.ofParts ofParts_wallRow) [wallRowBox] [wallRowBox]
  obtain ⟨m, e, hm, he, -, -, -, himmune⟩ := hdata 1 wallRow.standing rfl
  exact ⟨mid, after, hearlier, hlater, hcheck, hlevels, m, e, hm, he, fun h => himmune (.inl h)⟩

end Board

end Battlemap
