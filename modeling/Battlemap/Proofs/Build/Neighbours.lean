import Battlemap.Build.Bond
import Battlemap.Proofs.Build.Registration
import Mathlib.Data.Set.Card

/-!
# `Battlemap.Proofs.Build.Neighbours`: a solid's integrity is a number of neighbours

A solid has a neighbour in some direction (`Touches`) if some tile has both of them,
whether as boxes or as meshes, and their inflated bounds intersect. Its integrity is to be
the number of its neighbours above it and to its sides (`supporters`).

The bonds are found in another way. A tile takes every two of its solids in one order only,
so that its bonds go both ways needs that contact has no order (`Box.intersects_comm`), and
that none of them leads from a solid to itself needs that the tile lists a solid once
(`TileBin.nodup_solids`). `TileBin.mem_bonds_iff` says which bonds a tile has. The bonds of
all tiles are kept by owner and neighbour. These determine a bond, so the table has exactly
the bonds of the tiles, each once however many tiles have it (`mem_collectBonds_iff`,
`nodup_collectBonds`).

`solidStructures_count` is what follows for the structures: they are a count over neighbours
and not over bonds of tiles. So they depend on the tiles only through which solids meet in
one.
-/

set_option autoImplicit false

namespace Battlemap

/-! ### Contact -/

/-- Boxes have a point in common in either order. -/
theorem Box.intersects_comm (a b : Box) : a.intersects b = b.intersects a := by
  unfold intersects
  ac_rfl

/-- Two different solids whose inflated bounds intersect, the second one in this direction
from the first. -/
structure Contact (solids : Array Solid) (i j : Nat) (direction : CardinalDirection) : Prop where
  ne : i ≠ j
  intersects : ∃ a b, solids[i]? = some a ∧ solids[j]? = some b ∧
    (a.bounds.inflated contactInflation).intersects (b.bounds.inflated contactInflation) = true ∧
    direction = .between a.bounds.center b.bounds.center

namespace Contact

variable {solids : Array Solid} {i j : Nat} {direction : CardinalDirection}

/-- Only solids of the scene touch. -/
theorem lt_size (h : Contact solids i j direction) : i < solids.size ∧ j < solids.size := by
  obtain ⟨a, b, ha, hb, -, -⟩ := h.intersects
  exact ⟨(Array.getElem?_eq_some_iff.mp ha).1, (Array.getElem?_eq_some_iff.mp hb).1⟩

/-- A neighbour is in one direction. -/
theorem direction_eq {other : CardinalDirection} (h : Contact solids i j direction)
    (hother : Contact solids i j other) : direction = other := by
  obtain ⟨a, b, ha, hb, -, rfl⟩ := h.intersects
  obtain ⟨a', b', ha', hb', -, rfl⟩ := hother.intersects
  rw [ha] at ha'
  rw [hb] at hb'
  cases ha'
  cases hb'
  rfl

end Contact

/-- Two solids are in one tile. -/
def Meet (bins : List TileBin) (i j : Nat) : Prop := ∃ bin ∈ bins, bin.Holds i ∧ bin.Holds j

instance (bins : List TileBin) (i j : Nat) : Decidable (Meet bins i j) :=
  inferInstanceAs (Decidable (∃ bin ∈ bins, _))

/-- Two solids of one tile touch, the second one in this direction from the first. -/
structure Touches (solids : Array Solid) (bins : List TileBin) (i j : Nat)
    (direction : CardinalDirection) : Prop where
  meet : Meet bins i j
  contact : Contact solids i j direction

/-- The neighbours of a solid that count towards its integrity. -/
def supporters (solids : Array Solid) (bins : List TileBin) (i : Nat) : Set Nat :=
  {j | Touches solids bins i j .above ∨ Touches solids bins i j .left ∨
    Touches solids bins i j .right}

/-- The supporters of a solid are those that it touches above itself or to its sides. -/
theorem mem_supporters_iff {solids : Array Solid} {bins : List TileBin} {i j : Nat} :
    j ∈ supporters solids bins i ↔
      ∃ direction, direction.supports = true ∧ Touches solids bins i j direction := by
  constructor
  · rintro (h | h | h)
    · exact ⟨_, rfl, h⟩
    · exact ⟨_, rfl, h⟩
    · exact ⟨_, rfl, h⟩
  · rintro ⟨direction, hsupports, h⟩
    cases direction with
    | above => exact .inl h
    | left => exact .inr (.inl h)
    | right => exact .inr (.inr h)
    | below | front | back => cases hsupports

/-! ### The bonds of a tile -/

/-- The bond from one body to another. -/
def ContactBody.bondTo (a b : ContactBody) : Bond := ⟨a.index, b.index, .between a.center b.center⟩

/-- Two bodies whose inflated boxes intersect have a bond each way, and others have none. -/
theorem ContactBody.mem_bonds_iff {a b : ContactBody} {bond : Bond} :
    bond ∈ a.bonds b ↔
      a.inflated.intersects b.inflated = true ∧ (bond = a.bondTo b ∨ bond = b.bondTo a) := by
  unfold bonds bondTo
  split <;> simp [*]

/-- The bonds among different bodies go from each of them to every other one that it
touches. -/
theorem mem_bondsAmong_iff {bodies : List ContactBody}
    (h : bodies.Pairwise fun a b => a.index ≠ b.index) {bond : Bond} :
    bond ∈ bondsAmong bodies ↔
      ∃ a ∈ bodies, ∃ b ∈ bodies, a.index ≠ b.index ∧
        a.inflated.intersects b.inflated = true ∧ bond = a.bondTo b := by
  induction bodies with
  | nil => simp [bondsAmong]
  | cons first rest ih =>
    obtain ⟨hfirst, hrest⟩ := List.pairwise_cons.mp h
    rw [bondsAmong, List.mem_append, List.mem_flatMap, ih hrest]
    simp only [ContactBody.mem_bonds_iff]
    constructor
    · rintro (⟨b, hb, hmeet, rfl | rfl⟩ | ⟨a, ha, b, hb, hbond⟩)
      · exact ⟨first, List.mem_cons_self, b, List.mem_cons_of_mem _ hb, hfirst b hb, hmeet, rfl⟩
      · exact ⟨b, List.mem_cons_of_mem _ hb, first, List.mem_cons_self, (hfirst b hb).symm,
          Box.intersects_comm _ _ ▸ hmeet, rfl⟩
      · exact ⟨a, List.mem_cons_of_mem _ ha, b, List.mem_cons_of_mem _ hb, hbond⟩
    · rintro ⟨a, ha, b, hb, hne, hmeet, rfl⟩
      -- The first body is at one end of the bond, or at neither.
      rw [List.mem_cons] at ha hb
      rcases ha with rfl | ha <;> rcases hb with rfl | hb
      · exact absurd rfl hne
      · exact .inl ⟨b, hb, hmeet, .inl rfl⟩
      · exact .inl ⟨a, ha, Box.intersects_comm _ _ ▸ hmeet, .inr rfl⟩
      · exact .inr ⟨a, ha, b, hb, hne, hmeet, rfl⟩

/-- The body of a solid stands at the place of the solid. -/
theorem getElem?_contactBodies (solids : Array Solid) (i : Nat) :
    (contactBodies solids)[i]? = solids[i]?.map fun solid => .of solid i :=
  Array.getElem?_mapIdx

/-- The bodies of a tile are those of its solids. -/
theorem TileBin.mem_bodies_iff {solids : Array Solid} {bin : TileBin} {body : ContactBody} :
    body ∈ bin.solids.filterMap ((contactBodies solids)[·]?) ↔
      bin.Holds body.index ∧ ∃ solid, solids[body.index]? = some solid ∧
        body = .of solid body.index := by
  rw [List.mem_filterMap]
  simp only [mem_solids_iff, getElem?_contactBodies, Option.map_eq_some_iff]
  constructor
  · rintro ⟨i, hi, solid, hsolid, rfl⟩
    exact ⟨hi, solid, hsolid, rfl⟩
  · rintro ⟨hi, solid, hsolid, hbody⟩
    exact ⟨_, hi, solid, hsolid, hbody.symm⟩

/-- The bonds of a tile are the contacts among its solids. -/
theorem TileBin.mem_bonds_iff {solids : Array Solid} {bin : TileBin} {bond : Bond} :
    bond ∈ bin.bonds (contactBodies solids) ↔
      bin.Holds bond.owner ∧ bin.Holds bond.neighbour ∧
        Contact solids bond.owner bond.neighbour bond.direction := by
  -- A tile lists a solid once, so two bodies of it are of different solids.
  have hpairwise : (bin.solids.filterMap ((contactBodies solids)[·]?)).Pairwise
      fun a b => a.index ≠ b.index := by
    refine List.Pairwise.filterMap _ ?_ bin.nodup_solids
    intro i j hne a ha b hb
    rw [getElem?_contactBodies, Option.map_eq_some_iff] at ha hb
    obtain ⟨_, -, rfl⟩ := ha
    obtain ⟨_, -, rfl⟩ := hb
    exact hne
  unfold bonds
  rw [mem_bondsAmong_iff hpairwise]
  constructor
  · rintro ⟨a, ha, b, hb, hne, hmeet, rfl⟩
    obtain ⟨hholdsa, solida, hsolida, ha⟩ := mem_bodies_iff.mp ha
    obtain ⟨hholdsb, solidb, hsolidb, hb⟩ := mem_bodies_iff.mp hb
    rw [ha, hb] at hmeet ⊢
    exact ⟨hholdsa, hholdsb, hne, solida, solidb, hsolida, hsolidb, hmeet, rfl⟩
  · rintro ⟨hholdsa, hholdsb, hne, a, b, ha, hb, hmeet, hdirection⟩
    refine ⟨.of a bond.owner, mem_bodies_iff.mpr ⟨hholdsa, a, ha, rfl⟩,
      .of b bond.neighbour, mem_bodies_iff.mpr ⟨hholdsb, b, hb, rfl⟩, hne, hmeet, ?_⟩
    rw [ContactBody.bondTo, ContactBody.of, ContactBody.of, ← hdirection]

/-! ### The bonds of all tiles -/

/-- The place of a bond in the table of bonds between `n` solids. -/
def Bond.key (n : Nat) (bond : Bond) : Nat := bond.owner * n + bond.neighbour

/-- The table has these bonds, each under its key. -/
def KeepsBonds (n : Nat) (table : Std.TreeMap Nat Bond) (bonds : List Bond) : Prop :=
  ∀ (key : Nat) (bond : Bond), table[key]? = some bond ↔ bond ∈ bonds ∧ key = bond.key n

namespace KeepsBonds

variable {n : Nat} {table : Std.TreeMap Nat Bond} {bonds : List Bond}

/-- An empty table keeps no bonds. -/
theorem empty : KeepsBonds n ∅ [] := by
  intro key bond
  simp

/-- A table to which a bond is added has that one, too, unless another bond has its key. -/
theorem insert (h : KeepsBonds n table bonds) {bond : Bond}
    (hbond : ∀ other ∈ bonds, other.key n = bond.key n → other = bond) :
    KeepsBonds n (table.insert (bond.key n) bond) (bonds ++ [bond]) := by
  -- What the table has under a key is the bond that was added, or what it had there before.
  intro key other
  rw [Std.TreeMap.getElem?_insert, List.mem_append, List.mem_singleton]
  split
  case isTrue hkey =>
    obtain rfl : bond.key n = key := compare_eq_iff_eq.mp hkey
    constructor
    · rintro ⟨⟩
      exact ⟨.inr rfl, rfl⟩
    · rintro ⟨hother | rfl, hkey⟩
      · rw [hbond other hother hkey.symm]
      · rfl
  case isFalse hkey =>
    rw [h key other]
    constructor
    · rintro ⟨hother, rfl⟩
      exact ⟨.inl hother, rfl⟩
    · rintro ⟨hother | rfl, rfl⟩
      · exact ⟨hother, rfl⟩
      · exact absurd (compare_eq_iff_eq.mpr rfl) hkey

/-- Bonds of different keys can be added one after the other. -/
theorem foldl_insert (h : KeepsBonds n table bonds) (more : List Bond)
    (hkeys : ∀ a ∈ bonds ++ more, ∀ b ∈ bonds ++ more, a.key n = b.key n → a = b) :
    KeepsBonds n (more.foldl (fun table bond => table.insert (bond.key n) bond) table)
      (bonds ++ more) := by
  induction more generalizing table bonds with
  | nil => rwa [List.append_nil]
  | cons bond more ih =>
    rw [List.append_cons] at hkeys ⊢
    refine ih (h.insert fun other hother => ?_) hkeys
    exact hkeys other (by simp [hother]) bond (by simp)

/-- The values of a table are the second parts of its entries, in their order. -/
theorem values_eq : table.values = table.toList.map Prod.snd := by
  have hfold : table.values = table.foldr (fun _ bond bonds => bond :: bonds) [] := rfl
  rw [hfold, Std.TreeMap.foldr_eq_foldr_toList, List.map_eq_foldr]

/-- The values of the table are its bonds. -/
theorem mem_values_iff (h : KeepsBonds n table bonds) {bond : Bond} :
    bond ∈ table.values ↔ bond ∈ bonds := by
  rw [values_eq, List.mem_map]
  constructor
  · rintro ⟨⟨key, _⟩, hentry, rfl⟩
    exact ((h _ _).mp (Std.TreeMap.mem_toList_iff_getElem?_eq_some.mp hentry)).1
  · intro hbond
    exact ⟨(bond.key n, bond),
      Std.TreeMap.mem_toList_iff_getElem?_eq_some.mpr ((h _ _).mpr ⟨hbond, rfl⟩), rfl⟩

/-- No bond is in the table twice: it has one key. -/
theorem nodup_values (h : KeepsBonds n table bonds) : table.values.Nodup := by
  rw [values_eq, List.Nodup, List.pairwise_map]
  refine table.distinct_keys_toList.imp_of_mem ?_
  intro a b ha hb hne hbond
  have hkeya := ((h _ _).mp (Std.TreeMap.mem_toList_iff_getElem?_eq_some.mp ha)).2
  have hkeyb := ((h _ _).mp (Std.TreeMap.mem_toList_iff_getElem?_eq_some.mp hb)).2
  refine hne (compare_eq_iff_eq.mpr ?_)
  rw [hkeya, hkeyb, hbond]

end KeepsBonds

section
variable {solids : Array Solid} {bins : List TileBin}

/-- The bonds of all tiles are one for each solid that touches another one. -/
theorem mem_flatMap_bonds_iff {bond : Bond} :
    bond ∈ bins.flatMap (·.bonds (contactBodies solids)) ↔
      Touches solids bins bond.owner bond.neighbour bond.direction := by
  simp only [List.mem_flatMap, TileBin.mem_bonds_iff]
  constructor
  · rintro ⟨bin, hbin, howner, hneighbour, hcontact⟩
    exact ⟨⟨bin, hbin, howner, hneighbour⟩, hcontact⟩
  · rintro ⟨⟨bin, hbin, howner, hneighbour⟩, hcontact⟩
    exact ⟨bin, hbin, howner, hneighbour, hcontact⟩

/-- The ends of a bond determine it. -/
theorem Touches.bond_eq {a b : Bond} (ha : Touches solids bins a.owner a.neighbour a.direction)
    (hb : Touches solids bins b.owner b.neighbour b.direction)
    (howner : a.owner = b.owner) (hneighbour : a.neighbour = b.neighbour) : a = b := by
  rw [howner, hneighbour] at ha
  exact Bond.ext howner hneighbour (ha.contact.direction_eq hb.contact)

/-- So does its key. -/
theorem Touches.bond_eq_of_key {a b : Bond}
    (ha : Touches solids bins a.owner a.neighbour a.direction)
    (hb : Touches solids bins b.owner b.neighbour b.direction)
    (hkey : a.key solids.size = b.key solids.size) : a = b := by
  have hlta : a.neighbour < solids.size := ha.contact.lt_size.2
  have hltb : b.neighbour < solids.size := hb.contact.lt_size.2
  unfold Bond.key at hkey
  have hneighbour : a.neighbour = b.neighbour := by
    have hmod := congrArg (· % solids.size) hkey
    simpa [Nat.mod_eq_of_lt hlta, Nat.mod_eq_of_lt hltb] using hmod
  rw [hneighbour] at hkey
  exact ha.bond_eq hb (Nat.eq_of_mul_eq_mul_right (by omega) (Nat.add_right_cancel hkey)) hneighbour

/-- What is collected are the values of a table that keeps the bonds of all tiles. -/
theorem exists_keepsBonds_collectBonds (solids : Array Solid) (bins : List TileBin) :
    ∃ table : Std.TreeMap Nat Bond,
      KeepsBonds solids.size table (bins.flatMap (·.bonds (contactBodies solids))) ∧
        collectBonds (contactBodies solids) bins = table.values := by
  refine ⟨_, KeepsBonds.empty.foldl_insert (bins.flatMap (·.bonds (contactBodies solids))) ?_, ?_⟩
  · intro a ha b hb hkey
    exact (mem_flatMap_bonds_iff.mp ha).bond_eq_of_key (mem_flatMap_bonds_iff.mp hb) hkey
  · have hsize : (contactBodies solids).size = solids.size := Array.size_mapIdx
    rw [List.foldl_flatMap]
    unfold collectBonds
    rw [hsize]
    rfl

/-- The bonds between all solids are those between solids that touch in some tile. -/
theorem mem_collectBonds_iff {bond : Bond} :
    bond ∈ collectBonds (contactBodies solids) bins ↔
      Touches solids bins bond.owner bond.neighbour bond.direction := by
  obtain ⟨table, hkeeps, hvalues⟩ := exists_keepsBonds_collectBonds solids bins
  rw [hvalues, hkeeps.mem_values_iff, mem_flatMap_bonds_iff]

/-- They are there once, whatever the number of tiles. -/
theorem nodup_collectBonds (solids : Array Solid) (bins : List TileBin) :
    (collectBonds (contactBodies solids) bins).Nodup := by
  obtain ⟨table, hkeeps, hvalues⟩ := exists_keepsBonds_collectBonds solids bins
  exact hvalues ▸ hkeeps.nodup_values

end

/-! ### The structure of a solid -/

/-- The bonds of a solid that count towards its integrity lead to its supporters, one to
each. -/
theorem countP_ownBonds (solids : Array Solid) (bins : List TileBin) (i : Nat) :
    ((collectBonds (contactBodies solids) bins).filter fun bond => bond.owner == i).countP
      (fun bond => bond.direction.supports) = (supporters solids bins i).ncard := by
  rw [List.countP_eq_length_filter]
  generalize hcounted : ((collectBonds (contactBodies solids) bins).filter
    fun bond => bond.owner == i).filter (fun bond => bond.direction.supports) = counted
  have hmem : ∀ bond, bond ∈ counted ↔
      Touches solids bins bond.owner bond.neighbour bond.direction ∧
        bond.owner = i ∧ bond.direction.supports = true := by
    intro bond
    rw [← hcounted, List.mem_filter, List.mem_filter, mem_collectBonds_iff, beq_iff_eq, and_assoc]
  -- Two bonds of one solid to the same neighbour are one bond, so neighbours may be counted
  -- instead.
  have hnodup : (counted.map Bond.neighbour).Nodup := by
    refine List.Nodup.map_on ?_ (hcounted ▸ ((nodup_collectBonds solids bins).filter _).filter _)
    intro a ha b hb hneighbour
    obtain ⟨hatouches, haowner, -⟩ := (hmem a).mp ha
    obtain ⟨hbtouches, hbowner, -⟩ := (hmem b).mp hb
    exact hatouches.bond_eq hbtouches (haowner.trans hbowner.symm) hneighbour
  have hset : supporters solids bins i = ((counted.map Bond.neighbour).toFinset : Set Nat) := by
    ext j
    rw [mem_supporters_iff, List.coe_toFinset, Set.mem_ofPred_eq, List.mem_map]
    constructor
    · rintro ⟨direction, hsupports, htouches⟩
      exact ⟨⟨i, j, direction⟩, (hmem _).mpr ⟨htouches, rfl, hsupports⟩, rfl⟩
    · rintro ⟨bond, hbond, rfl⟩
      obtain ⟨htouches, rfl, hsupports⟩ := (hmem bond).mp hbond
      exact ⟨bond.direction, hsupports, htouches⟩
  calc counted.length
      = (counted.map Bond.neighbour).length := by rw [List.length_map]
    _ = (counted.map Bond.neighbour).toFinset.card := (List.toFinset_card_of_nodup hnodup).symm
    _ = (supporters solids bins i).ncard := by rw [hset, Set.ncard_coe_finset]

/-- A bond leads down from a solid if the solid touches one below it. -/
theorem any_ownBonds_iff {solids : Array Solid} {bins : List TileBin} {i : Nat} :
    (((collectBonds (contactBodies solids) bins).filter fun bond => bond.owner == i).any
      fun bond => bond.direction == .below) = true ↔ ∃ j, Touches solids bins i j .below := by
  simp only [List.any_eq_true, List.mem_filter, mem_collectBonds_iff, beq_iff_eq]
  constructor
  · rintro ⟨bond, ⟨htouches, rfl⟩, hbelow⟩
    exact ⟨bond.neighbour, hbelow ▸ htouches⟩
  · rintro ⟨j, htouches⟩
    exact ⟨⟨i, j, .below⟩, ⟨htouches, rfl⟩, rfl⟩

/-- The structure of a solid stands at the place of the solid. -/
theorem getElem?_solidStructures (solids : Array Solid) (bins : List TileBin) (i : Nat) :
    (solidStructures solids bins)[i]? = solids[i]?.map fun solid =>
      solidStructure (collectBonds (contactBodies solids) bins) solid i :=
  Array.getElem?_mapIdx

/-- There is one structure for each solid. -/
theorem size_solidStructures (solids : Array Solid) (bins : List TileBin) :
    (solidStructures solids bins).size = solids.size := Array.size_mapIdx

/-- By its shape a box is a floor or a wall. -/
theorem Box.shapeKind_cases (bounds : Box) :
    bounds.shapeKind = .floor ∨ bounds.shapeKind = .wall := by
  unfold shapeKind
  dsimp only
  split
  · exact .inl rfl
  · exact .inr rfl

/-- A structure is a count over neighbours, and a kind that depends on whether there is
one below. -/
theorem solidStructure_eq (solids : Array Solid) (bins : List TileBin) (solid : Solid) (i : Nat)
    [Decidable (∃ j, Touches solids bins i j .below)] :
    solidStructure (collectBonds (contactBodies solids) bins) solid i =
      { kind := if ∃ j, Touches solids bins i j .below then solid.bounds.shapeKind else .world
        integrity := Int32.ofNat (supporters solids bins i).ncard } := by
  unfold solidStructure
  dsimp only
  rw [countP_ownBonds]
  congr 1
  exact if_congr any_ownBonds_iff rfl rfl

/-- A supporter is one of the solids, and another one. -/
theorem ncard_supporters_lt {solids : Array Solid} {i : Nat} (hi : i < solids.size)
    (bins : List TileBin) : (supporters solids bins i).ncard < solids.size := by
  have hsubset : supporters solids bins i ⊆ ((Finset.range solids.size).erase i : Finset Nat) := by
    intro j hj
    obtain ⟨direction, -, htouches⟩ := mem_supporters_iff.mp hj
    simpa using ⟨htouches.contact.lt_size.2, htouches.contact.ne.symm⟩
  calc (supporters solids bins i).ncard
      ≤ ((Finset.range solids.size).erase i).card :=
        Set.ncard_coe_finset _ ▸ Set.ncard_le_ncard hsubset (Finset.finite_toSet _)
    _ < (Finset.range solids.size).card := Finset.card_erase_lt_of_mem (Finset.mem_range.mpr hi)
    _ = solids.size := Finset.card_range _

/-- Solids touch by where they are and by which of them meet in a tile. -/
theorem touches_congr {solids : Array Solid} {bins bins' : List TileBin}
    (h : ∀ i j, i ≠ j → i < solids.size → j < solids.size → (Meet bins' i j ↔ Meet bins i j)) :
    Touches solids bins' = Touches solids bins := by
  funext i j direction
  refine propext ⟨fun htouches => ?_, fun htouches => ?_⟩
  · obtain ⟨hi, hj⟩ := htouches.contact.lt_size
    exact ⟨(h i j htouches.contact.ne hi hj).mp htouches.meet, htouches.contact⟩
  · obtain ⟨hi, hj⟩ := htouches.contact.lt_size
    exact ⟨(h i j htouches.contact.ne hi hj).mpr htouches.meet, htouches.contact⟩

/-- The integrity of a solid is the number of its different neighbours above it and to its
sides, kept in 32 bits with a sign. So it is that number for up to `2 ^ 31` solids; with more
of them it can wrap, and then it differs from the number. A solid belongs to the world
exactly if it touches none below it, and otherwise has the kind of its shape. Other tiles in
which the same solids meet give the same structures, so neither the number of tiles that two
solids share nor the order of the tiles counts. -/
theorem solidStructures_count (solids : Array Solid) (bins : List TileBin) :
    (solidStructures solids bins).size = solids.size ∧
    (∀ (i : Nat) (solid : Solid), solids[i]? = some solid →
      ∃ s, (solidStructures solids bins)[i]? = some s ∧
        s.integrity = Int32.ofNat (supporters solids bins i).ncard ∧
        (solids.size ≤ 2 ^ 31 → s.integrity.toInt = (supporters solids bins i).ncard) ∧
        (s.kind = .world ↔ ¬ ∃ j, Touches solids bins i j .below) ∧
        ((∃ j, Touches solids bins i j .below) → s.kind = solid.bounds.shapeKind)) ∧
    ∀ bins' : List TileBin,
      (∀ i j, i ≠ j → i < solids.size → j < solids.size → (Meet bins' i j ↔ Meet bins i j)) →
        solidStructures solids bins' = solidStructures solids bins := by
  classical
  refine ⟨size_solidStructures solids bins, ?_, ?_⟩
  · intro i solid hsolid
    have hlt := ncard_supporters_lt (Array.getElem?_eq_some_iff.mp hsolid).1 bins
    have hs : (solidStructures solids bins)[i]? =
        some (solidStructure (collectBonds (contactBodies solids) bins) solid i) := by
      rw [getElem?_solidStructures, hsolid, Option.map_some]
    rw [solidStructure_eq] at hs
    refine ⟨_, hs, rfl, fun hsize => ?_, ?_, fun hbelow => if_pos hbelow⟩
    · exact Int32.toInt_ofNat_of_lt (Nat.lt_of_lt_of_le hlt hsize)
    · show (if _ then _ else _) = StructuralKind.world ↔ _
      split
      case isTrue hbelow => rcases solid.bounds.shapeKind_cases with h | h <;> simp [h, hbelow]
      case isFalse hbelow => simp [hbelow]
  · intro bins' hmeet
    -- The structures are a matter of which solids touch, and in which direction.
    have htouches := touches_congr hmeet
    refine Array.ext_getElem? fun i => ?_
    simp only [getElem?_solidStructures, solidStructure_eq, supporters, htouches]

/-- A box of a scene, one wide in every direction, with its lower corner here. -/
def unitBlock (x y z : Single) : Solid :=
  ⟨none, ⟨⟨x, y, z⟩, ⟨x + .one, y + .one, z + .one⟩⟩, ⟨.plain, []⟩⟩

/-- A block, a second one on it and a third one to its right. -/
def blockPile : Array Solid :=
  #[unitBlock .zero .zero .zero, unitBlock .zero .one .zero, unitBlock .one .zero .zero]

/-- Two tiles, both of which have the block and the one on it. -/
def blockTiles : List TileBin := [⟨⟨0, 0⟩, [0, 1], [], []⟩, ⟨⟨1, 0⟩, [2, 0, 1], [], []⟩]

/-- The upper block is a floor: it lies on another one. -/
theorem touches_blockPile : Touches blockPile blockTiles 1 0 .below where
  meet := by decide
  contact := ⟨by decide, unitBlock .zero .one .zero, unitBlock .zero .zero .zero, by decide +kernel⟩

/-- The upper block of the pile lies on the lower one and counts its supports, whichever way
round the tiles are listed. -/
theorem blockPile_count :
    Touches blockPile blockTiles 1 0 .below ∧
      (∃ s : LayerStructure, (solidStructures blockPile blockTiles)[1]? = some s ∧
        s.integrity.toInt = (supporters blockPile blockTiles 1).ncard ∧
        s.kind = (unitBlock .zero .one .zero).bounds.shapeKind) ∧
      solidStructures blockPile blockTiles.reverse = solidStructures blockPile blockTiles := by
  obtain ⟨-, hstructure, htiles⟩ := solidStructures_count blockPile blockTiles
  obtain ⟨s, hs, -, hcount, -, hkind⟩ := hstructure 1 (unitBlock .zero .one .zero) rfl
  refine ⟨touches_blockPile, ⟨s, hs, hcount (by decide), hkind ⟨0, touches_blockPile⟩⟩, ?_⟩
  refine htiles blockTiles.reverse fun i j _ _ _ => ?_
  simp [Meet]

end Battlemap
