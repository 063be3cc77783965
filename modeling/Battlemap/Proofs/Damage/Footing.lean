import Battlemap.Proofs.Damage.Endurance

/-!
# `Battlemap.Proofs.Damage.Footing`: damage only moves lookups up

A lookup picks the lowest level of a tile that fits its query, and the
topmost one if none does (`Standing.PickedFrom`). Strikes can only make a
level that fits stop fitting: they destroy levels and never bring one back,
and neither its layer nor its floor changes (`Board.Fits.of_worn`). A level
that fits and still stands goes on to fit (`Board.Fits.worn`).

So the levels that fit after an event are some of those that fitted before
it, and the least of them can only be higher: `lookup_moves_up`. This needs
no more than that the data wears, which holds whatever levels share, and
however large the grid is.
-/

set_option autoImplicit false

namespace Battlemap

namespace Board

variable {b : Board} {data : Array LevelData} {q : Query} {c : Cell} {tile : Tile} {position : Nat}

/-! ### Which levels fit -/

/-- A level that fits after some strikes fitted before them. -/
theorem Fits.of_worn (hwear : DataWearsTo b.data data)
    (h : Fits { b with data := data } q c tile position) : b.Fits q c tile position := by
  obtain ⟨level, e, hlevel, he, hstands, hmask, hlow, hhigh⟩ := h
  obtain ⟨d, hd, hde⟩ := hwear.exists_before he
  refine ⟨level, d, hlevel, hd, hde.stands hstands, ?_, hlow, hhigh⟩
  rw [← hde.layerMask]
  exact hmask

/-- A level that fits and stands after some strikes goes on to fit. -/
theorem Fits.worn (hwear : DataWearsTo b.data data) (h : b.Fits q c tile position)
    (hstands : ∀ e, dataOf? { b with data := data } (tile.first + position) = some e →
      e.header.isDestroyed = false) : Fits { b with data := data } q c tile position := by
  obtain ⟨level, d, hlevel, hd, -, hmask, hlow, hhigh⟩ := h
  obtain ⟨e, he, hde⟩ := hwear.entry _ d hd
  have hof : dataOf? { b with data := data } (tile.first + position) = some e := by
    simp [dataOf?, hlevel, he]
  refine ⟨level, e, hlevel, he, hstands e hof, ?_, hlow, hhigh⟩
  rw [hde.layerMask]
  exact hmask

end Board

/-! ### Which level answers -/

/-- An answer names the lowest level of a tile that fits, or the topmost one
if none does. -/
structure Standing.PickedFrom (s : Standing) (b : Board) (q : Board.Query) (c : Cell)
    (tile : Tile) : Prop where
  names : s.Names b q c tile
  which : (s.matched = true ∧ IsLeast {p | p < tile.count ∧ b.Fits q c tile p} s.level) ∨
    (s.matched = false ∧ s.level = tile.count - 1 ∧ ∀ p < tile.count, ¬ b.Fits q c tile p)

namespace Standing.PickedFrom

variable {b : Board} {data : Array LevelData} {q : Board.Query} {c : Cell} {tile : Tile}
  {s t : Standing}

/-- A match after some strikes has a match before them, at a level no higher. -/
theorem matched_le (hwear : DataWearsTo b.data data) (hs : s.PickedFrom b q c tile)
    (ht : t.PickedFrom { b with data := data } q c tile) (hmatched : t.matched = true) :
    s.matched = true ∧ s.level ≤ t.level := by
  rcases ht.which with ⟨-, hleast⟩ | ⟨hunmatched, -⟩
  · have hbefore : b.Fits q c tile t.level := Board.Fits.of_worn hwear hleast.1.2
    rcases hs.which with ⟨hmatch, hleast'⟩ | ⟨-, -, hnone⟩
    · exact ⟨hmatch, hleast'.2 ⟨hleast.1.1, hbefore⟩⟩
    · exact absurd hbefore (hnone t.level hleast.1.1)
  · rw [hmatched] at hunmatched
    cases hunmatched

/-- Answers that name the same level alike are the same, since strikes change no
floor. -/
theorem eq_of_level (hs : s.PickedFrom b q c tile)
    (ht : t.PickedFrom { b with data := data } q c tile) (hlevel : t.level = s.level)
    (hmatched : t.matched = s.matched) : t = s := by
  have hindex : t.levelIndex = s.levelIndex := by
    rw [ht.names.levelIndex, hs.names.levelIndex, hlevel]
  obtain ⟨l, hl, hfloor⟩ := hs.names.floorHeight
  obtain ⟨m, hm, hfloor'⟩ := ht.names.floorHeight
  have hsame : m = l := by
    rw [hindex] at hm
    exact Option.some.inj (hm.symm.trans hl)
  have hheight : t.floorHeight = s.floorHeight := by
    rw [hfloor, hfloor', hsame]
    rfl
  have hcell : t.cell = s.cell := ht.names.cell.trans hs.names.cell.symm
  cases s
  cases t
  simp_all

/-- Where nothing matched before, the topmost level goes on to answer. -/
theorem eq_of_unmatched (hwear : DataWearsTo b.data data) (hs : s.PickedFrom b q c tile)
    (ht : t.PickedFrom { b with data := data } q c tile) (hunmatched : s.matched = false) :
    t = s := by
  have hlater : t.matched = false := by
    cases hmatched : t.matched with
    | false => rfl
    | true =>
      have hmatch := (hs.matched_le hwear ht hmatched).1
      rw [hunmatched] at hmatch
      cases hmatch
  refine hs.eq_of_level ht ?_ (hlater.trans hunmatched.symm)
  rcases hs.which with ⟨hmatch, -⟩ | ⟨-, htop, -⟩
  · simp [hunmatched] at hmatch
  · rcases ht.which with ⟨hmatch, -⟩ | ⟨-, htop', -⟩
    · simp [hlater] at hmatch
    · rw [htop, htop']

/-- A match that still stands goes on to answer. -/
theorem eq_of_stands (hwear : DataWearsTo b.data data) (hs : s.PickedFrom b q c tile)
    (ht : t.PickedFrom { b with data := data } q c tile) (hmatched : s.matched = true)
    (hstands : ∀ e, Board.dataOf? { b with data := data } s.levelIndex = some e →
      e.header.isDestroyed = false) : t = s := by
  rw [hs.names.levelIndex] at hstands
  rcases hs.which with ⟨-, hleast⟩ | ⟨hunmatched, -⟩
  · -- The level of the match fits after the strikes too, so something matches then.
    have hfits := Board.Fits.worn hwear hleast.1.2 hstands
    rcases ht.which with ⟨hmatch, hleast'⟩ | ⟨-, -, hnone⟩
    · have hle : t.level ≤ s.level := hleast'.2 ⟨hleast.1.1, hfits⟩
      have hge : s.level ≤ t.level := (hs.matched_le hwear ht hmatch).2
      exact hs.eq_of_level ht (Nat.le_antisymm hle hge) (hmatch.trans hmatched.symm)
    · exact absurd hfits (hnone s.level hleast.1.1)
  · rw [hmatched] at hunmatched
    cases hunmatched

end Standing.PickedFrom

namespace Board

variable {b : Board}

/-- A lookup before and one after some strikes both have no answer, or both pick one
from the same tile. -/
theorem Consistent.lookups_worn (hb : b.Consistent) {data : Array LevelData}
    (hwear : DataWearsTo b.data data) (q : Query) {c : Cell}
    (hc : b.grid.cellAt q.point.x q.point.z = c) :
    (b.lookup? q = some none ∧ lookup? { b with data := data } q = some none) ∨
      ∃ tile s t, b.lookup? q = some (some s) ∧
        lookup? { b with data := data } q = some (some t) ∧
        s.PickedFrom b q c tile ∧ t.PickedFrom { b with data := data } q c tile := by
  rcases hb.lookup?_cases q hc with ⟨hnone, hempty⟩ | ⟨tile, s, htile, hcount, hs, hnames, hwhich⟩
  · rcases (hb.worn hwear).lookup?_cases q hc with
      ⟨hnone', -⟩ | ⟨tile, t, htile, hcount, -⟩
    · exact .inl ⟨hnone, hnone'⟩
    · exact absurd (hempty tile htile) hcount
  · rcases (hb.worn hwear).lookup?_cases q hc with
      ⟨-, hempty⟩ | ⟨tile', t, htile', -, ht, hnames', hwhich'⟩
    · exact absurd (hempty tile htile) hcount
    · -- The tiles are those of the board in both cases.
      have hsame : tile' = tile := Option.some.inj (htile'.symm.trans htile)
      subst hsame
      exact .inr ⟨tile', s, t, hs, ht, ⟨hnames, hwhich⟩, ⟨hnames', hwhich'⟩⟩

/-- Damage only moves lookups up. The same query before and after an event has an
answer in both cases or in neither, and the answers are on the same tile. If the later
one is a match, then so is the earlier one, at a level no higher. The answers only
differ if the earlier one is a match whose level the event destroyed. -/
theorem lookup_moves_up {grid : Grid} {payloadSize : UInt32} {tiles : Array Tile}
    {levels : Array Level} {data : Array LevelData}
    (hparts : ofParts grid payloadSize tiles levels data = .ok b) (damage : Box) (q : Query) :
    ∃ after report earlier later, b.damage? damage = some (after, report) ∧
      b.lookup? q = some earlier ∧ after.lookup? q = some later ∧
      earlier.isSome = later.isSome ∧
      ∀ s t, earlier = some s → later = some t →
        t.cell = s.cell ∧
        (t.matched = true → s.matched = true ∧ s.level ≤ t.level) ∧
        (s.matched = false → t = s) ∧
        ∃ e, after.dataOf? s.levelIndex = some e ∧
          (s.matched = true → e.header.isDestroyed = false → t = s) := by
  have hb := Consistent.of_ofParts hparts
  obtain ⟨worn, report, hdamage, hwear⟩ := hb.exists_damage? damage
  rcases hb.lookups_worn hwear q rfl with ⟨hnone, hnone'⟩ | ⟨tile, s, t, hs, ht, hpick, hpick'⟩
  · exact ⟨_, report, none, none, hdamage, hnone, hnone', rfl, fun s t hs => by cases hs⟩
  · refine ⟨_, report, some s, some t, hdamage, hs, ht, rfl, ?_⟩
    intro s' t' hs' ht'
    cases hs'
    cases ht'
    refine ⟨hpick'.names.cell.trans hpick.names.cell.symm, hpick.matched_le hwear hpick',
      hpick.eq_of_unmatched hwear hpick', ?_⟩
    -- The level of the earlier answer has data, which the event has worn.
    obtain ⟨d, hd⟩ := hpick.names.hasData
    obtain ⟨level, hlevel, hentry⟩ := Option.bind_eq_some_iff.mp hd
    obtain ⟨e, he, -⟩ := hwear.entry _ d hentry
    have hof : dataOf? { b with data := worn } s.levelIndex = some e := by
      simp [dataOf?, hlevel, he]
    refine ⟨e, hof, ?_⟩
    intro hmatched hstands
    refine hpick.eq_of_stands hwear hpick' hmatched ?_
    intro e' he'
    cases hof.symm.trans he'
    exact hstands

/-- A tile with a weak floor at the height zero and a strong one above it. -/
def loft : Board where
  grid := ⟨1, 1, .one, .zero, .zero, .infinity⟩
  payloadSize := 0
  tiles := #[⟨2, 0⟩]
  levels := #[floor .zero 0, floor .one 1]
  data := #[⟨{ LevelHeader.plain with kind := .floor, position := 0, integrity := 2 }, []⟩,
    ⟨{ LevelHeader.plain with kind := .floor, position := 1, integrity := 7 }, []⟩]
where
  floor (height : Single) (index : UInt32) : Level :=
    ⟨.facingUp height, .invalid, height, .infinity, index, 0⟩

/-- The loft is a board that is accepted. -/
theorem ofParts_loft :
    ofParts loft.grid loft.payloadSize loft.tiles loft.levels loft.data = .ok loft := rfl

/-- A strike at the height zero destroys the weak floor. Who stood on it stands on the
strong one afterwards. -/
theorem loft_lookup_moves_up :
    ∃ after report s t, loft.damage? ⟨.zero, .zero⟩ = some (after, report) ∧
      loft.lookup? originQuery = some (some s) ∧ after.lookup? originQuery = some (some t) ∧
      (s.matched = true ∧ s.level = 0) ∧ (t.matched = true ∧ t.level = 1) ∧
      t.cell = s.cell ∧ s.level ≤ t.level := by
  obtain ⟨after, report, earlier, later, hdamage, hearlier, hlater, -, hmoves⟩ :=
    lookup_moves_up ofParts_loft ⟨.zero, .zero⟩ originQuery
  have hfirst : loft.lookup? originQuery = some (some ⟨⟨0, 0⟩, 0, 0, .zero, true⟩) := by
    decide +kernel
  have hsecond : (loft.damage? ⟨.zero, .zero⟩).bind (fun r => r.1.lookup? originQuery)
      = some (some ⟨⟨0, 0⟩, 1, 1, .one, true⟩) := by
    decide +kernel
  rw [hdamage, Option.bind_some, hlater] at hsecond
  rw [hearlier] at hfirst
  obtain ⟨hcell, hup, -⟩ := hmoves _ _ (Option.some.inj hfirst) (Option.some.inj hsecond)
  exact ⟨after, report, _, _, hdamage, hearlier.trans hfirst, hlater.trans hsecond, ⟨rfl, rfl⟩,
    ⟨rfl, rfl⟩, hcell, (hup rfl).2⟩

end Board

end Battlemap
