import Battlemap.Build.Bond
import Mathlib.Data.List.Forall2
import Mathlib.Order.Bounds.Basic

/-!
# `Battlemap.Proofs.Build.Contribution`: what the solids in a level come to

A level takes its structure from the destructible solids that reach into it: the most binding
kind and the least integrity among them, which need not be of the same solid.
`LayerStructure.IsJoin` says this of any list of structures. Merging them one by one arrives
there (`foldl_merge_eq_some_iff`), so neither their order nor how often one is given matters
(`foldl_merge_congr`).

`Layer.Gains` says what a level is after that, solid by solid. Fresh levels, as fitting leaves
them, gain exactly the solids of their tile that reach into the room between their base and
their roof, which `Layer.room` writes out (`FittedTile.baked_gains`).
-/

set_option autoImplicit false

namespace Battlemap

namespace StructuralKind

/-- The order of the kinds, from the least to the most binding. -/
instance : LE StructuralKind := ⟨fun a b => a.code ≤ b.code⟩

instance (a b : StructuralKind) : Decidable (a ≤ b) :=
  inferInstanceAs (Decidable (a.code ≤ b.code))

example : notStructural ≤ floor ∧ floor ≤ wall ∧ wall ≤ world ∧ ¬ world ≤ wall ∧ ¬ wall ≤ floor ∧
    ¬ floor ≤ notStructural := by
  decide

/-- Two kinds that are no more binding than each other are the same, since each has its own
code. -/
theorem le_antisymm {a b : StructuralKind} (hab : a ≤ b) (hba : b ≤ a) : a = b := by
  revert hab hba
  cases a <;> cases b <;> decide

/-- The order of the kinds is that of their codes, and so transitive. -/
theorem le_trans {a b c : StructuralKind} (hab : a ≤ b) (hbc : b ≤ c) : a ≤ c :=
  UInt8.le_trans hab hbc

/-- The more binding of two kinds is one of them, and not below either. -/
theorem combine_cases (a b : StructuralKind) :
    (a.combine b = a ∨ a.combine b = b) ∧ a ≤ a.combine b ∧ b ≤ a.combine b := by
  cases a <;> cases b <;> decide

end StructuralKind

namespace LayerStructure

/-- The structure has the most binding kind and the least integrity of some structures. -/
structure IsJoin (parts : List LayerStructure) (s : LayerStructure) : Prop where
  kind : IsGreatest {k | ∃ part ∈ parts, part.kind = k} s.kind
  integrity : IsLeast {n | ∃ part ∈ parts, part.integrity = n} s.integrity

/-- Structures come to one structure only. -/
theorem IsJoin.unique {parts : List LayerStructure} {s t : LayerStructure}
    (hs : IsJoin parts s) (ht : IsJoin parts t) : s = t := by
  have hkind : s.kind = t.kind :=
    StructuralKind.le_antisymm (ht.kind.2 hs.kind.1) (hs.kind.2 ht.kind.1)
  have hintegrity : s.integrity = t.integrity :=
    Int32.le_antisymm (hs.integrity.2 ht.integrity.1) (ht.integrity.2 hs.integrity.1)
  cases s
  cases t
  simp_all

/-- A single structure comes to itself. -/
theorem isJoin_singleton (s : LayerStructure) : IsJoin [s] s := by
  refine ⟨⟨⟨s, by simp, rfl⟩, ?_⟩, ⟨⟨s, by simp, rfl⟩, ?_⟩⟩
  · rintro _ ⟨part, hpart, rfl⟩
    rw [List.mem_singleton.mp hpart]
    exact UInt8.le_refl _
  · rintro _ ⟨part, hpart, rfl⟩
    rw [List.mem_singleton.mp hpart]
    exact Int32.le_refl _

/-- The lesser of two integrities is one of them, and not above either. -/
theorem lesser_cases (a b : Int32) :
    let lesser := if b < a then b else a
    (lesser = a ∨ lesser = b) ∧ lesser ≤ a ∧ lesser ≤ b := by
  dsimp only
  split
  case isTrue hlt => exact ⟨.inr rfl, Int32.le_of_lt hlt, Int32.le_refl b⟩
  case isFalse hle => exact ⟨.inl rfl, Int32.le_refl a, Int32.not_lt.mp hle⟩

/-- One more structure is merged into what the ones before it come to. -/
theorem IsJoin.merge {parts : List LayerStructure} {s : LayerStructure} (h : IsJoin parts s)
    (next : LayerStructure) :
    ∃ t, LayerStructure.merge (some s) next = some t ∧ IsJoin (parts ++ [next]) t := by
  refine ⟨_, rfl, ?_, ?_⟩
  · obtain ⟨hone, hfirst, hsecond⟩ := s.kind.combine_cases next.kind
    obtain ⟨part, hpart, hmost⟩ := h.kind.1
    constructor
    · -- It is the kind of the new structure, or the one that was most binding before.
      rcases hone with hs | hnext
      · exact ⟨part, by simp [hpart], hmost.trans hs.symm⟩
      · exact ⟨next, by simp, hnext.symm⟩
    · rintro _ ⟨other, hother, rfl⟩
      rcases List.mem_append.mp hother with hbefore | hlast
      · exact StructuralKind.le_trans (h.kind.2 ⟨other, hbefore, rfl⟩) hfirst
      · rw [List.mem_singleton.mp hlast]
        exact hsecond
  · obtain ⟨hone, hfirst, hsecond⟩ := lesser_cases s.integrity next.integrity
    obtain ⟨part, hpart, hleast⟩ := h.integrity.1
    constructor
    · rcases hone with hs | hnext
      · exact ⟨part, by simp [hpart], hleast.trans hs.symm⟩
      · exact ⟨next, by simp, hnext.symm⟩
    · rintro _ ⟨other, hother, rfl⟩
      rcases List.mem_append.mp hother with hbefore | hlast
      · exact Int32.le_trans hfirst (h.integrity.2 ⟨other, hbefore, rfl⟩)
      · rw [List.mem_singleton.mp hlast]
        exact hsecond

/-- Merging goes on from what the structures before come to. -/
theorem IsJoin.foldl_merge {parts : List LayerStructure} {s : LayerStructure} (h : IsJoin parts s)
    (rest : List LayerStructure) :
    ∃ t, rest.foldl LayerStructure.merge (some s) = some t ∧ IsJoin (parts ++ rest) t := by
  induction rest generalizing parts s with
  | nil => exact ⟨s, rfl, by simpa using h⟩
  | cons next rest ih =>
    obtain ⟨t, ht, hjoin⟩ := h.merge next
    obtain ⟨u, hu, hrest⟩ := ih hjoin
    refine ⟨u, ?_, by simpa using hrest⟩
    rw [List.foldl_cons, ht, hu]

/-- Merging some structures, of which there is at least one, gives what they come to. -/
theorem exists_foldl_merge {parts : List LayerStructure} (h : parts ≠ []) :
    ∃ s, parts.foldl LayerStructure.merge none = some s ∧ IsJoin parts s := by
  cases parts with
  | nil => exact absurd rfl h
  | cons first rest => exact (isJoin_singleton first).foldl_merge rest

/-- Merging gives no structure exactly if there are none to merge. -/
theorem foldl_merge_eq_none_iff {parts : List LayerStructure} :
    parts.foldl LayerStructure.merge none = none ↔ parts = [] := by
  constructor
  · intro hnone
    by_contra hne
    obtain ⟨s, hs, -⟩ := exists_foldl_merge hne
    rw [hs] at hnone
    cases hnone
  · rintro rfl
    rfl

/-- Merging gives a structure exactly if it has the most binding kind and the least integrity of
those that are merged. -/
theorem foldl_merge_eq_some_iff {parts : List LayerStructure} {s : LayerStructure} :
    parts.foldl LayerStructure.merge none = some s ↔ IsJoin parts s := by
  constructor
  · intro hs
    have hne : parts ≠ [] := by
      rintro rfl
      cases hs
    obtain ⟨t, ht, hjoin⟩ := exists_foldl_merge hne
    rw [hs] at ht
    cases ht
    exact hjoin
  · intro hjoin
    have hne : parts ≠ [] := by
      obtain ⟨part, hpart, -⟩ := hjoin.kind.1
      exact List.ne_nil_of_mem hpart
    obtain ⟨t, ht, hjoin'⟩ := exists_foldl_merge hne
    rw [ht, hjoin.unique hjoin']

/-- The order of the structures does not matter, nor how often one of them is given. -/
theorem foldl_merge_congr {parts parts' : List LayerStructure}
    (h : ∀ part, part ∈ parts ↔ part ∈ parts') :
    parts.foldl LayerStructure.merge none = parts'.foldl LayerStructure.merge none := by
  refine Option.ext fun s => ?_
  have hsame : IsJoin parts s ↔ IsJoin parts' s :=
    ⟨fun hs => ⟨by simpa only [← h] using hs.kind, by simpa only [← h] using hs.integrity⟩,
      fun hs => ⟨by simpa only [h] using hs.kind, by simpa only [h] using hs.integrity⟩⟩
  rw [foldl_merge_eq_some_iff, foldl_merge_eq_some_iff, hsame]

/-- What the entries of a table at some places come to, said of the places. -/
theorem isJoin_filterMap_iff {structures : Array LayerStructure} {places : List Nat}
    {s : LayerStructure} :
    IsJoin (places.filterMap fun i => structures[i]?) s ↔
      IsGreatest {k | ∃ i ∈ places, ∃ t, structures[i]? = some t ∧ t.kind = k} s.kind ∧
        IsLeast {n | ∃ i ∈ places, ∃ t, structures[i]? = some t ∧ t.integrity = n}
          s.integrity := by
  have hexists {α : Type} (f : LayerStructure → α) (a : α) :
      (∃ part ∈ places.filterMap (fun i => structures[i]?), f part = a) ↔
        ∃ i ∈ places, ∃ t, structures[i]? = some t ∧ f t = a := by
    simp only [List.mem_filterMap]
    constructor
    · rintro ⟨part, ⟨i, hi, hpart⟩, ha⟩
      exact ⟨i, hi, part, hpart, ha⟩
    · rintro ⟨i, hi, part, hpart, ha⟩
      exact ⟨part, ⟨i, hi, hpart⟩, ha⟩
  simp only [← hexists]
  exact ⟨fun h => ⟨h.kind, h.integrity⟩, fun ⟨hkind, hintegrity⟩ => ⟨hkind, hintegrity⟩⟩

end LayerStructure

/-! ### What a level gains -/

/-- The room of a level over the ground plan of its tile: from a margin above the base to a
margin below the top. The top is the roof, cut off at the top of the grid, but no lower than
the base. The ends of each axis are sorted, since the margins can exchange those of a level
that is flat. -/
def Layer.room (l : Layer) (g : Grid) (c : Cell) : Box :=
  let plan := g.tileBounds c
  let low := l.baseHeight + spanMargin
  let high := ((l.baseHeight + l.roofDelta).min g.maxHeight).max l.baseHeight - spanMargin
  { min := ⟨plan.min.x.min plan.max.x, low.min high, plan.min.z.min plan.max.z⟩
    max := ⟨plan.min.x.max plan.max.x, low.max high, plan.min.z.max plan.max.z⟩ }

/-- The span of a level over its tile is its room. -/
theorem Layer.span_tileBounds (l : Layer) (g : Grid) (c : Cell) :
    l.span g (g.tileBounds c) = l.room g c := rfl

/-- A box reaches into another one: along no axis does either of them begin behind the end of
the other. -/
def Box.ReachesInto (a b : Box) : Prop :=
  ∀ axis ∈ [Vec3.x, Vec3.y, Vec3.z], axis a.min ≤ axis b.max ∧ axis b.min ≤ axis a.max

instance (a b : Box) : Decidable (a.ReachesInto b) := inferInstanceAs (Decidable (∀ _ ∈ _, _))

/-- The test of two boxes finds whether one reaches into the other. -/
theorem Box.intersects_eq (a b : Box) : a.intersects b = decide (a.ReachesInto b) := by
  rw [Bool.eq_iff_iff, decide_eq_true_iff]
  simp [intersects, ReachesInto, and_assoc]

/-- The level has gained the solids of a list that reach into a box, in their order, and with
them the most binding kind and the least integrity that the table gives these solids. Without
such a solid it has no structure. Nothing else has changed. -/
structure Layer.Gains (before after : Layer) (room : Box) (entries : List (Nat × Box))
    (structures : Array LayerStructure) : Prop where
  destructibles : after.destructibles
    = (entries.filter fun entry => entry.2.ReachesInto room).map Prod.fst
  plain : after.structural = none ↔ after.destructibles = []
  structural : ∀ s, after.structural = some s ↔
    IsGreatest {k | ∃ i ∈ after.destructibles, ∃ t, structures[i]? = some t ∧ t.kind = k} s.kind ∧
      IsLeast {n | ∃ i ∈ after.destructibles, ∃ t, structures[i]? = some t ∧ t.integrity = n}
        s.integrity
  rest : after
    = { before with destructibles := after.destructibles, structural := after.structural }

/-- A level that nothing is known of yet gains the solids of its tile that reach into its room. -/
theorem Layer.gains_baked {l : Layer} (hfresh : l.destructibles = [] ∧ l.structural = none)
    (g : Grid) {structures : Array LayerStructure} {bin : TileBin}
    (hknown : ∀ entry ∈ bin.destructibles,
      entry.2.ReachesInto (l.room g bin.cell) → entry.1 < structures.size) :
    l.Gains (l.baked g structures bin) (l.room g bin.cell) bin.destructibles structures := by
  obtain ⟨hdestructibles, hstructural⟩ := hfresh
  have hinside : (l.baked g structures bin).destructibles
      = (bin.destructibles.filter fun entry =>
          entry.2.ReachesInto (l.room g bin.cell)).map Prod.fst := by
    simp only [baked, hdestructibles, List.nil_append, span_tileBounds, Box.intersects_eq]
  -- The level was fresh, so its structure is that of the solids alone.
  have hmerged : (l.baked g structures bin).structural
      = ((l.baked g structures bin).destructibles.filterMap fun i => structures[i]?).foldl
          LayerStructure.merge none := by
    rw [hinside]
    simp only [baked, hstructural, span_tileBounds, Box.intersects_eq]
  refine ⟨hinside, ?_, fun s => ?_, rfl⟩
  · rw [hmerged, LayerStructure.foldl_merge_eq_none_iff]
    constructor
    · intro hnone
      rw [List.filterMap_eq_nil_iff] at hnone
      refine List.eq_nil_iff_forall_not_mem.mpr fun i hi => ?_
      -- A solid in the level is one of the tile, and the table has an entry for it.
      have hsize : i < structures.size := by
        rw [hinside] at hi
        obtain ⟨entry, hentry, rfl⟩ := List.mem_map.mp hi
        obtain ⟨hmem, hreaches⟩ := List.mem_filter.mp hentry
        exact hknown entry hmem (of_decide_eq_true hreaches)
      exact absurd (hnone i hi) (by simp [hsize])
    · intro hnil
      rw [hnil, List.filterMap_nil]
  · rw [hmerged, LayerStructure.foldl_merge_eq_some_iff, LayerStructure.isJoin_filterMap_iff]

/-- The structure of a level does not depend on the order in which its solids are listed. -/
theorem Layer.baked_perm (l : Layer) (hfresh : l.structural = none) (g : Grid)
    (structures : Array LayerStructure) {bin bin' : TileBin} (hcell : bin'.cell = bin.cell)
    (hperm : bin'.destructibles.Perm bin.destructibles) :
    (l.baked g structures bin').destructibles.Perm (l.baked g structures bin).destructibles ∧
      (l.baked g structures bin').structural = (l.baked g structures bin).structural := by
  have hinside := (hperm.filter fun entry =>
    entry.2.intersects (l.span g (g.tileBounds bin.cell))).map Prod.fst
  unfold baked
  dsimp only
  rw [hcell, hfresh]
  refine ⟨hinside.append_left _, LayerStructure.foldl_merge_congr fun part => ?_⟩
  exact (hinside.filterMap _).mem_iff

/-- The levels of a tile, fresh from fitting, gain the solids of the tile that reach into them,
as long as the table has an entry for each of these. Whatever the order in which the tile lists
its solids, each level gains the same ones and has the same structure. -/
theorem FittedTile.baked_gains {tile : FittedTile}
    (hfresh : ∀ l ∈ tile.layers, l.destructibles = [] ∧ l.structural = none) (g : Grid)
    {structures : Array LayerStructure}
    (hknown : ∀ l ∈ tile.layers, ∀ entry ∈ tile.bin.destructibles,
      entry.2.ReachesInto (l.room g tile.bin.cell) → entry.1 < structures.size) :
    List.Forall₂ (fun before after =>
        before.Gains after (before.room g tile.bin.cell) tile.bin.destructibles structures)
      tile.layers (tile.baked g structures).layers ∧
    ∀ other : FittedTile, other.layers = tile.layers → other.bin.cell = tile.bin.cell →
      other.bin.destructibles.Perm tile.bin.destructibles →
      List.Forall₂ (fun l m => l.destructibles.Perm m.destructibles ∧ l.structural = m.structural)
        (other.baked g structures).layers (tile.baked g structures).layers := by
  constructor
  · rw [baked, List.forall₂_map_right_iff, List.forall₂_same]
    intro l hl
    exact Layer.gains_baked (hfresh l hl) g (hknown l hl)
  · intro other hlayers hcell hperm
    rw [baked, baked, hlayers, List.forall₂_map_left_iff, List.forall₂_map_right_iff,
      List.forall₂_same]
    intro l hl
    exact l.baked_perm (hfresh l hl).2 g structures hcell hperm

/-! ### A gallery over a hall -/

/-- A fresh level between two heights. -/
def plainLevel (low delta : Single) : Layer :=
  ⟨.facingUp low, .facingDown (low + delta), low, delta, none, none, [], none⟩

/-- What stands near the tile: a floor in the lower level, a wall that reaches from there into the
upper one, and a pillar beside the tile. -/
def gallerySolids : List (Nat × Box) :=
  [(0, ⟨.splat .zero, .splat .one⟩), (2, ⟨.splat .one, .splat ⟨0x40a00000⟩⟩),
    (1, ⟨.splat ⟨0x41000000⟩, .splat ⟨0x41200000⟩⟩)]

/-- One tile with a level from zero to two and one from four to six. -/
def gallery (solids : List (Nat × Box)) : FittedTile where
  measured := ⟨⟨⟨⟨0, 0⟩, [0, 1, 2], [], solids⟩, #[], 0⟩, #[]⟩
  layers := [plainLevel .zero ⟨0x40000000⟩, plainLevel ⟨0x40800000⟩ ⟨0x40000000⟩]

/-- The grid of the gallery. -/
def galleryGrid : Grid := ⟨1, 1, ⟨0x40000000⟩, .splat .zero, .zero, ⟨0x41200000⟩⟩

/-- The structures of the floor, the pillar and the wall. -/
def galleryStructures : Array LayerStructure := #[⟨.floor, 1⟩, ⟨.world, 0⟩, ⟨.wall, 3⟩]

example : ((gallery gallerySolids).baked galleryGrid galleryStructures).layers.map
    (fun l => (l.destructibles, l.structural))
    = [([0, 2], some ⟨.wall, 1⟩), ([2], some ⟨.wall, 3⟩)] := by
  decide

/-- The levels of the gallery gain the floor and the wall, and the same structure if these are
listed the other way round. -/
theorem gallery_gains :
    let tile := gallery gallerySolids
    let other := gallery gallerySolids.reverse
    (∀ l ∈ tile.layers, l.destructibles = [] ∧ l.structural = none) ∧
    (∀ l ∈ tile.layers, ∀ entry ∈ tile.bin.destructibles,
      entry.2.ReachesInto (l.room galleryGrid tile.bin.cell) →
        entry.1 < galleryStructures.size) ∧
    List.Forall₂ (fun before after => before.Gains after
        (before.room galleryGrid tile.bin.cell) tile.bin.destructibles
        galleryStructures)
      tile.layers (tile.baked galleryGrid galleryStructures).layers ∧
    other.bin.destructibles.Perm tile.bin.destructibles ∧
    List.Forall₂ (fun l m => l.destructibles.Perm m.destructibles ∧ l.structural = m.structural)
      (other.baked galleryGrid galleryStructures).layers
      (tile.baked galleryGrid galleryStructures).layers := by
  intro tile other
  have hfresh : ∀ l ∈ tile.layers, l.destructibles = [] ∧ l.structural = none := by decide
  have hknown : ∀ l ∈ tile.layers, ∀ entry ∈ tile.bin.destructibles,
      entry.2.ReachesInto (l.room galleryGrid tile.bin.cell) →
        entry.1 < galleryStructures.size := by
    have hall : ∀ entry ∈ tile.bin.destructibles, entry.1 < galleryStructures.size := by decide
    exact fun l _ entry hentry _ => hall entry hentry
  have hperm : other.bin.destructibles.Perm tile.bin.destructibles :=
    List.reverse_perm gallerySolids
  obtain ⟨hgains, horder⟩ := FittedTile.baked_gains hfresh galleryGrid hknown
  exact ⟨hfresh, hknown, hgains, hperm, horder other rfl rfl hperm⟩

end Battlemap
