import Battlemap.Proofs.Build.Contribution
import Battlemap.Proofs.Build.Fitting
import Battlemap.Proofs.Build.Neighbours
import Battlemap.Proofs.Header

/-!
# `Battlemap.Proofs.Build.Baking`: what a level takes from the solids in it

A solid that something holds up is a floor or a wall, and any other one belongs to
the world, so a level takes part in the structure as soon as one destructible solid
reaches into it (`Layer.settled_baked`). Its integrity is that of one of these
solids, which is the number of solids that support it, and so less than the number of
solids (`ncard_supporters_lt`).

The header of a level is completed from this structure, and says of itself what the
level is: `Builder.describes_header`.
-/

set_option autoImplicit false

namespace Battlemap

/-! ### The structure of a solid -/

/-- A structure that a solid can have, of a number of solids. -/
structure LayerStructure.Sound (n : Nat) (s : LayerStructure) : Prop where
  kind : s.kind ≠ .notStructural
  /-- The integrity is the number of the solids that support one. -/
  integrity : ∃ supports ≤ n, s.integrity = Int32.ofNat supports

/-- A solid has a structure. -/
theorem sound_of_solidStructures {solids : Array Solid} {bins : List TileBin} {i : Nat}
    {s : LayerStructure} (h : (solidStructures solids bins)[i]? = some s) :
    s.Sound solids.size := by
  classical
  rw [getElem?_solidStructures, Option.map_eq_some_iff] at h
  obtain ⟨solid, hsolid, rfl⟩ := h
  have hi : i < solids.size := (Array.getElem?_eq_some_iff.mp hsolid).1
  rw [solidStructure_eq]
  refine ⟨?_, _, (ncard_supporters_lt hi bins).le, rfl⟩
  dsimp only
  split
  · rcases solid.bounds.shapeKind_cases with h | h <;> simp [h]
  · decide

/-- What structures that solids can have come to is one that a solid can have. -/
theorem LayerStructure.IsJoin.sound {n : Nat} {parts : List LayerStructure} {s : LayerStructure}
    (hjoin : IsJoin parts s) (h : ∀ part ∈ parts, part.Sound n) : s.Sound n := by
  obtain ⟨binding, hbinding, hkind⟩ := hjoin.kind.1
  obtain ⟨weakest, hweakest, hintegrity⟩ := hjoin.integrity.1
  exact ⟨hkind ▸ (h binding hbinding).kind, hintegrity ▸ (h weakest hweakest).integrity⟩

namespace Layer

/-- Fitting leaves the structure of a level open. -/
theorem bare_of_mem_fitAll {c : Cell} {tileSize : Single}
    {sides : List (LayerField × LayerStatistics)} {layer : Layer}
    (h : layer ∈ fitAll c tileSize sides) : layer.destructibles = [] ∧ layer.structural = none := by
  obtain ⟨i, hi⟩ := List.mem_iff_getElem?.mp h
  obtain ⟨_, _, -, -, rfl⟩ := getElem?_fitAll hi
  exact ⟨destructibles_fitted .., structural_fitted ..⟩

/-- A level has a structure exactly if some destructible solid reaches into it, and then
one that a solid can have. -/
inductive Settled (n : Nat) (l : Layer) : Prop
  | plain (hnone : l.destructibles = []) (hopen : l.structural = none)
  | structural (hsome : l.destructibles ≠ []) {s : LayerStructure}
      (hs : l.structural = some s) (hsound : s.Sound n)

/-- Structure settles a fitted level. -/
theorem settled_baked {l : Layer} (hbare : l.destructibles = [] ∧ l.structural = none)
    (g : Grid) {solids : Array Solid} {bins : List TileBin} {bin : TileBin}
    (hbin : ∀ entry ∈ bin.destructibles, entry.1 < solids.size) :
    (l.baked g (solidStructures solids bins) bin).Settled solids.size := by
  obtain ⟨hdestructibles, hstructural⟩ := hbare
  unfold baked
  dsimp only
  rw [hdestructibles, hstructural, List.nil_append]
  generalize hinside : ((bin.destructibles.filter fun entry =>
    entry.2.intersects (l.span g (g.tileBounds bin.cell))).map Prod.fst) = inside
  cases inside with
  | nil => exact .plain rfl rfl
  | cons first rest =>
    have hfirst : first < (solidStructures solids bins).size := by
      have hmem : first ∈ first :: rest := by simp
      rw [← hinside] at hmem
      obtain ⟨entry, hentry, rfl⟩ := List.mem_map.mp hmem
      rw [size_solidStructures]
      exact hbin entry (List.mem_filter.mp hentry).1
    have hsound : ∀ s ∈ (first :: rest).filterMap ((solidStructures solids bins)[·]?),
        s.Sound solids.size := by
      intro s hs
      obtain ⟨i, -, hi⟩ := List.mem_filterMap.mp hs
      exact sound_of_solidStructures hi
    -- The first solid has a structure, so there is one to merge.
    have hne : (first :: rest).filterMap ((solidStructures solids bins)[·]?) ≠ [] := by
      rw [List.filterMap_cons_some (Array.getElem?_eq_getElem hfirst)]
      exact List.cons_ne_nil _ _
    obtain ⟨s, hs, hjoin⟩ := LayerStructure.exists_foldl_merge hne
    exact .structural (List.cons_ne_nil first rest) hs (hjoin.sound hsound)

end Layer

/-! ### The header of a level -/

/-- The header says what its level is: one with this ceiling, at this position of
its tile, on a board built from `n` solids. -/
structure LevelHeader.Describes (h : LevelHeader) (ceiling : Plane) (position n : Nat) : Prop where
  position : h.position.toNat = position
  standing : h.isDestroyed = false
  roofValid : h.hasFlag roofValidFlag = ceiling.isValid
  structural : h.hasFlag structuralFlag = h.hasFlag destructibleFlag
  destructible : h.hasFlag destructibleFlag = true ↔ h.kind ≠ .notStructural
  plain : h.kind = .notStructural → h.integrity = 0
  /-- The integrity is a number of solids. -/
  supports : ∃ supports ≤ n, h.integrity = Int32.ofNat supports
  /-- It is kept in 32 bits with a sign. With `2 ^ 31` solids or more it can wrap, and then it
  differs from the number of supports and may be negative. -/
  nonneg : n < 2 ^ 31 → 0 ≤ h.integrity

/-- A count of supports that fits into 31 bits is stored as a number that is not negative. -/
theorem zero_le_of_supports {n : Nat} {integrity : Int32}
    (h : ∃ supports ≤ n, integrity = Int32.ofNat supports) (hn : n < 2 ^ 31) : 0 ≤ integrity := by
  obtain ⟨supports, hle, rfl⟩ := h
  rw [Int32.le_iff_toInt_le, Int32.toInt_ofNat_of_lt (by omega)]
  exact Int.natCast_nonneg supports

namespace Layer

/-- The structural flag is the last one that a header gets. -/
theorem hasFlag_header (l : Layer) (inherited : LevelHeader) (position : Nat) {flag : UInt32}
    (h : structuralFlag &&& flag = 0) :
    (l.header inherited position).hasFlag flag
      = (((inherited.setFlag destroyedFlag false).setFlag roofValidFlag l.ceiling.isValid).setFlag
          destructibleFlag !l.destructibles.isEmpty).hasFlag flag :=
  LevelHeader.hasFlag_setFlag_of_disjoint _ h _

/-- The header calls a level destructible exactly if some destructible solid reaches into it. -/
theorem hasFlag_header_destructible (l : Layer) (inherited : LevelHeader) (position : Nat) :
    (l.header inherited position).hasFlag destructibleFlag = !l.destructibles.isEmpty := by
  simp (disch := decide) [hasFlag_header]

/-- The header calls a level structural exactly if it has a structural kind. -/
theorem hasFlag_header_structural (l : Layer) (inherited : LevelHeader) (position : Nat) :
    (l.header inherited position).hasFlag structuralFlag
      = ((l.header inherited position).kind != .notStructural) :=
  LevelHeader.hasFlag_setFlag_self _ (by decide) _

namespace Settled

variable {n : Nat} {l : Layer}

/-- A level takes part in the structure if a destructible solid reaches into it. -/
theorem kind_header_ne_iff (h : l.Settled n) (inherited : LevelHeader) (position : Nat) :
    (l.header inherited position).kind ≠ .notStructural ↔ l.destructibles ≠ [] := by
  show (l.structural.getD ⟨.notStructural, 0⟩).kind ≠ .notStructural ↔ _
  cases h with
  | plain hnone hopen => simp [hnone, hopen]
  | structural hsome hs hsound => simp [hsome, hs, hsound.kind]

/-- The integrity of a level is a number of solids. -/
theorem integrity_header (h : l.Settled n) (inherited : LevelHeader) (position : Nat) :
    ∃ supports ≤ n, (l.header inherited position).integrity = Int32.ofNat supports := by
  show ∃ supports ≤ n, (l.structural.getD ⟨.notStructural, 0⟩).integrity = Int32.ofNat supports
  cases h with
  | plain _ hopen =>
    rw [hopen]
    exact ⟨0, Nat.zero_le n, rfl⟩
  | structural _ hs hsound =>
    rw [hs]
    exact hsound.integrity

/-- A level that does not take part in the structure has no integrity. -/
theorem integrity_header_eq_zero (h : l.Settled n) {inherited : LevelHeader} {position : Nat}
    (hkind : (l.header inherited position).kind = .notStructural) :
    (l.header inherited position).integrity = 0 := by
  have hnone : ¬ l.destructibles ≠ [] := mt (h.kind_header_ne_iff inherited position).mpr (· hkind)
  show (l.structural.getD ⟨.notStructural, 0⟩).integrity = 0
  cases h with
  | plain _ hopen => rw [hopen, Option.getD_none]
  | structural hsome => exact absurd hsome hnone

end Settled

end Layer

namespace Builder

/-- The destructible solids near a tile are solids of the build. -/
theorem index_lt_of_mem_destructibles (builder : Builder) (g : Grid) (c : Cell) :
    ∀ entry ∈ (builder.binAt g c).destructibles, entry.1 < builder.solids.size := by
  intro entry hentry
  obtain ⟨reach, hreach, hentry⟩ := List.mem_filterMap.mp hentry
  obtain ⟨⟨solid, index⟩, hmem, rfl⟩ := List.mem_map.mp hreach
  rw [Option.ite_none_right_eq_some] at hentry
  cases hentry.2
  show index < builder.solids.size
  simpa using (List.mem_zipIdx hmem).2.1

/-- The levels of a build are settled. -/
theorem settled_of_mem_levelsAt {builder : Builder} {g : Grid} {c : Cell} {layer : Layer}
    (h : layer ∈ builder.levelsAt g c) : layer.Settled builder.solids.size := by
  obtain ⟨fitted, hfitted, rfl⟩ := List.mem_map.mp h
  exact Layer.settled_baked (Layer.bare_of_mem_fitAll hfitted) g
    (builder.index_lt_of_mem_destructibles g c)

/-- A level of a build gets a header that describes it, whatever the header of the
solid that carries it. -/
theorem describes_header {builder : Builder} {g : Grid} {c : Cell} {layer : Layer}
    (h : layer ∈ builder.levelsAt g c) (inherited : LevelHeader) {position : Nat}
    (hposition : position < UInt16.size) :
    (layer.header inherited position).Describes layer.ceiling position builder.solids.size := by
  have hsettled := settled_of_mem_levelsAt h
  have hsupports := hsettled.integrity_header inherited position
  -- The flag says that there are destructible solids, and then the level has a kind.
  have hdestructible : (layer.header inherited position).hasFlag destructibleFlag = true ↔
      (layer.header inherited position).kind ≠ .notStructural := by
    rw [layer.hasFlag_header_destructible, hsettled.kind_header_ne_iff]
    simp
  exact
    { position := UInt16.toNat_ofNat_of_lt' hposition
      standing := by simp (disch := decide) [LevelHeader.isDestroyed, Layer.hasFlag_header]
      roofValid := by simp (disch := decide) [Layer.hasFlag_header]
      structural := by
        rw [Bool.eq_iff_iff, hdestructible, layer.hasFlag_header_structural, bne_iff_ne]
      destructible := hdestructible
      plain := hsettled.integrity_header_eq_zero
      supports := hsupports
      nonneg := zero_le_of_supports hsupports }

end Builder

end Battlemap
