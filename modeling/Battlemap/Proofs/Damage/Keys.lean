import Battlemap.Proofs.Damage.Event
import Battlemap.Proofs.Obtained

/-!
# `Battlemap.Proofs.Damage.Keys`: when keys stand for tiles

An event asks its two tables by key whether a tile was ever put on the
stack, and where its visit waits. `Cascade.Tells` says that the answers
for a tile are about this tile.

A key has 16 bits for the column and 16 bits for the row. The builder and
stitching make no grid with more than `dimensionLimit` columns or rows,
but a board that is made from parts or read from a file may have more.
`keys_tell_apart` says exactly for which boards different tiles have
different keys, and that on these the tables tell of every tile, in every
state of every event. It needs no more than `Cascade.Invariant`, which
asks nothing else of the size of the grid.

In a row of 65537 tiles the first and the last one share a key. As soon
as the first tile waits, the tables tell the same of the last one
(`strip_keys_meet`): a collapse next to the last tile adds its spans to
the visit of the first one, and the last one is never visited.
-/

set_option autoImplicit false

namespace Battlemap

/-- The tables of a state tell of a tile whether it was ever put on the
stack, and in which slots its visits wait. -/
structure Cascade.Tells (s : Cascade) (c : Cell) : Prop where
  reached : c.key ∈ s.reached ↔ c ∈ s.visited ∨ ∃ v ∈ s.stack, v.cell = c
  pending : ∀ slot, s.pending[c.key]? = some slot ↔ ∃ v, s.stack[slot]? = some v ∧ v.cell = c

/-- Where the tables agree with some deliveries, they tell of every tile. -/
theorem Cascade.Ledger.tells {g : Grid} {delivered : Deliveries} {s : Cascade}
    (h : s.Ledger g delivered) {c : Cell} (hc : g.contains c = true) : s.Tells c where
  reached := by simp [h.reached c hc, touched, waiting]
  pending slot := by
    rw [h.slot c hc, waiting, List.getElem?_map, Array.getElem?_toList, Option.map_eq_some_iff]

namespace Board

variable {b : Board}

/-- A consistent board has no tiles exactly if its grid has none. -/
theorem Consistent.tiles_eq_empty_iff (hb : b.Consistent) :
    b.tiles = #[] ↔ b.grid.tileCount = 0 := by
  rw [← hb.tileCount, Array.size_eq_zero_iff]

/-- Different tiles of a board have different keys exactly if the board
has no tiles, or no more columns and rows than 16 bits can count. The
tables of an event then tell of every tile, in every state of the
event. -/
theorem keys_tell_apart (hb : b.Obtained) :
    ((∀ c d, b.grid.contains c = true → b.grid.contains d = true → c ≠ d → c.key ≠ d.key) ↔
      b.tiles = #[] ∨ b.grid.width.toNat ≤ 65536 ∧ b.grid.height.toNat ≤ 65536) ∧
    (b.tiles = #[] ∨ b.grid.width.toNat ≤ 65536 ∧ b.grid.height.toNat ≤ 65536 →
      ∀ damage s, Relation.ReflTransGen (Cascade.Step b) (b.cascadeOf damage) s →
        ∀ c, b.grid.contains c = true → s.Tells c) := by
  have hfits : b.grid.KeysApart ↔
      b.tiles = #[] ∨ b.grid.width.toNat ≤ 65536 ∧ b.grid.height.toNat ≤ 65536 := by
    rw [hb.consistent.tiles_eq_empty_iff, Grid.keysApart_iff]
  constructor
  · rw [← hfits]
    constructor
    · intro h c d hc hd hkey
      by_contra hne
      exact h c d hc hd hne hkey
    · intro h c d hc hd hne hkey
      exact hne (h c d hc hd hkey)
  · intro hsize damage s hsteps c hc
    have hapart := hfits.mpr hsize
    -- Keys that tell tiles apart are all that the ledger of an event needs.
    have hinv := (invariant_cascadeOf hb.consistent hapart damage).steps hb.consistent hapart hsteps
    exact hinv.ledger.tells hc

/-- A row of tiles without levels. -/
def strip (width : UInt32) : Board where
  grid := ⟨width, 1, .one, .zero, .zero, .one⟩
  payloadSize := 0
  tiles := Array.replicate width.toNat ⟨0, 0⟩
  levels := #[]
  data := #[]

/-- A strip of any width is a board that is accepted, since its tiles are empty. -/
theorem ofParts_strip (width : UInt32) :
    ofParts (strip width).grid 0 (strip width).tiles #[] #[] = .ok (strip width) := by
  have hbare : ∀ tile ∈ (strip width).tiles, tile = ⟨0, 0⟩ := by
    intro tile htile
    exact (Array.mem_replicate.mp htile).2
  refine ofParts_eq_ok_iff.mpr ⟨rfl, ?_, ?_, ?_⟩
  · simp [strip, Grid.tileCount]
  · intro tile htile
    rw [hbare tile htile]
    exact Nat.le_refl 0
  · intro tile htile position hposition
    rw [hbare tile htile] at hposition
    cases hposition

/-- The widest strip within the limit has a key of its own for both of its ends. -/
theorem strip_tells :
    (strip 65536).grid.contains ⟨0, 0⟩ = true ∧ (strip 65536).grid.contains ⟨65535, 0⟩ = true ∧
      (⟨0, 0⟩ : Cell).key ≠ (⟨65535, 0⟩ : Cell).key ∧
      ((strip 65536).cascadeOf ⟨.zero, .zero⟩).Tells ⟨65535, 0⟩ := by
  have hfits : (strip 65536).tiles = #[] ∨
      (strip 65536).grid.width.toNat ≤ 65536 ∧ (strip 65536).grid.height.toNat ≤ 65536 :=
    .inr ⟨by decide, by decide⟩
  have hcell : (strip 65536).grid.contains ⟨65535, 0⟩ = true := by decide
  obtain ⟨hkeys, htells⟩ := keys_tell_apart (.ofParts (ofParts_strip 65536))
  exact ⟨by decide, hcell, hkeys.mpr hfits _ _ (by decide) hcell (by decide),
    htells hfits _ _ .refl _ hcell⟩

/-- The first and the last tile of a longer row share a key. When the
first one waits, the tables tell of the last one that it waits. -/
theorem strip_keys_meet :
    (strip 65537).Obtained ∧
      (strip 65537).grid.contains ⟨0, 0⟩ = true ∧
      (strip 65537).grid.contains ⟨65536, 0⟩ = true ∧
      (⟨0, 0⟩ : Cell) ≠ ⟨65536, 0⟩ ∧ (⟨0, 0⟩ : Cell).key = (⟨65536, 0⟩ : Cell).key ∧
      ¬ ((strip 65537).cascadeOf ⟨.zero, .zero⟩).Tells ⟨65536, 0⟩ := by
  refine ⟨.ofParts (ofParts_strip 65537), by decide, by decide, by decide, by decide, ?_⟩
  have hstruck : (strip 65537).struckCells ⟨.zero, .zero⟩ = [⟨0, 0⟩] := by
    have htiles : (strip 65537).tiles.isEmpty = false := by simp [strip]
    have hmet : (strip 65537).isMissedBy ⟨.zero, .zero⟩ = false := by decide +kernel
    rw [struckCells, htiles, hmet]
    decide +kernel
  intro htells
  have hreached : (⟨65536, 0⟩ : Cell).key ∈ ((strip 65537).cascadeOf ⟨.zero, .zero⟩).reached := by
    rw [cascadeOf, hstruck]
    decide +kernel
  -- The key of the last tile was reached by the first one. The last one neither was visited nor
  -- waits.
  rcases htells.reached.mp hreached with hvisited | ⟨v, hv, hcell⟩
  · simp [cascadeOf, hstruck, Cascade.push] at hvisited
  · simp [cascadeOf, hstruck, Cascade.push] at hv
    simp [hv] at hcell

end Board

end Battlemap
