import Battlemap.Board.Damage
import Mathlib.Data.List.Nodup
import Mathlib.Data.List.Perm.Subperm

/-!
# `Battlemap.Proofs.Grid`: cells, neighbours and keys

The facts about the tile grid that the theory of damage rests on:

* `cellAt_contains`: on a grid with tiles, every point belongs to a tile.
* `mem_rectangle_iff`: a rectangle of cells holds exactly the cells
  between its corners, each once (`nodup_rectangle`).
* `mem_neighbours_iff`: the neighbours of a cell are the tiles that
  adjoin it, each once (`nodup_neighbours`).
* `keysApart_iff`: the keys tell the tiles of a grid apart exactly if
  its columns and rows can be counted in 16 bits. On a grid with at most
  `dimensionLimit` of them they do (`FitsKeys.keysApart`).
-/

set_option autoImplicit false

namespace Battlemap

/-- Two cells adjoin if they are one step apart along one axis. -/
def Cell.Adjoins (c n : Cell) : Prop :=
  (c.z = n.z ∧ (n.x.toNat = c.x.toNat + 1 ∨ c.x.toNat = n.x.toNat + 1)) ∨
    (c.x = n.x ∧ (n.z.toNat = c.z.toNat + 1 ∨ c.z.toNat = n.z.toNat + 1))

instance (c n : Cell) : Decidable (c.Adjoins n) := by
  unfold Cell.Adjoins
  infer_instance

/-- Cells are the same if their columns and rows are, as numbers. -/
theorem Cell.ext_toNat {c d : Cell} (hx : c.x.toNat = d.x.toNat) (hz : c.z.toNat = d.z.toNat) :
    c = d := by
  cases c
  cases d
  simp_all [UInt32.toNat_inj]

namespace Grid

/-! ### Points and rectangles -/

/-- The clamped index along an axis with tiles is the index of a tile. -/
theorem clampedIndex_lt (position origin tileSize : Single) {count : UInt32}
    (h : 0 < count.toNat) : (clampedIndex position origin tileSize count).toNat < count.toNat := by
  have hsize := count.toNat_lt
  unfold clampedIndex
  -- Whatever the division gives, the clamp leaves an index below `count`.
  generalize (Single.toIntWithin _ _ _) = index
  rw [UInt32.toNat_ofNat_of_lt' (by simp [UInt32.size]; omega)]
  omega

/-- On a grid with tiles, every point belongs to a tile. -/
theorem cellAt_contains {g : Grid} (h : 0 < g.tileCount) (x z : Single) :
    g.contains (g.cellAt x z) = true := by
  have hne : g.width.toNat ≠ 0 ∧ g.height.toNat ≠ 0 :=
    Nat.mul_ne_zero_iff.mp (Nat.ne_of_gt h)
  exact contains_iff.mpr ⟨clampedIndex_lt x _ _ (Nat.pos_of_ne_zero hne.1),
    clampedIndex_lt z _ _ (Nat.pos_of_ne_zero hne.2)⟩

/-- The place of a tile lies inside the tile array of a consistent board. -/
theorem tileIndex_lt {g : Grid} {c : Cell} (h : g.contains c = true) :
    g.tileIndex c < g.tileCount := by
  obtain ⟨hx, hz⟩ := contains_iff.mp h
  calc g.tileIndex c < c.z.toNat * g.width.toNat + g.width.toNat := Nat.add_lt_add_left hx _
    _ = (c.z.toNat + 1) * g.width.toNat := (Nat.succ_mul _ _).symm
    _ ≤ g.height.toNat * g.width.toNat := Nat.mul_le_mul_right _ hz
    _ = g.tileCount := Nat.mul_comm _ _

/-- Two tiles with one place in row-major order are one tile. -/
theorem tileIndex_inj {g : Grid} {c d : Cell} (hc : g.contains c = true) (hd : g.contains d = true)
    (h : g.tileIndex c = g.tileIndex d) : c = d := by
  obtain ⟨hcx, -⟩ := contains_iff.mp hc
  obtain ⟨hdx, -⟩ := contains_iff.mp hd
  have hwidth : 0 < g.width.toNat := Nat.zero_lt_of_lt hcx
  -- The row is the quotient by the width and the column the rest.
  have hquotient := congrArg (· / g.width.toNat) h
  have hrest := congrArg (· % g.width.toNat) h
  simp only [tileIndex, Nat.mul_comm _ g.width.toNat, Nat.mul_add_div hwidth,
    Nat.mul_add_mod, Nat.div_eq_of_lt hcx, Nat.div_eq_of_lt hdx, Nat.mod_eq_of_lt hcx,
    Nat.mod_eq_of_lt hdx, Nat.add_zero] at hquotient hrest
  exact Cell.ext_toNat hrest hquotient

/-- Every place in row-major order is that of a tile. -/
theorem exists_tileIndex {g : Grid} {k : Nat} (h : k < g.tileCount) :
    ∃ c, g.contains c = true ∧ g.tileIndex c = k := by
  have hwidth : 0 < g.width.toNat := Nat.pos_of_lt_mul_right h
  have hx : k % g.width.toNat < g.width.toNat := Nat.mod_lt k hwidth
  have hz : k / g.width.toNat < g.height.toNat := Nat.div_lt_of_lt_mul h
  have hx' : (k % g.width.toNat).toUInt32.toNat = k % g.width.toNat :=
    UInt32.toNat_ofNat_of_lt' (Nat.lt_trans hx g.width.toNat_lt)
  have hz' : (k / g.width.toNat).toUInt32.toNat = k / g.width.toNat :=
    UInt32.toNat_ofNat_of_lt' (Nat.lt_trans hz g.height.toNat_lt)
  refine ⟨⟨(k % g.width.toNat).toUInt32, (k / g.width.toNat).toUInt32⟩, ?_, ?_⟩
  · rw [contains_iff, hx', hz']
    exact ⟨hx, hz⟩
  · rw [tileIndex, hx', hz']
    exact Nat.div_add_mod' k g.width.toNat

/-- Rows of one length stand behind one another in row-major order. -/
theorem getElem?_flatMap_range {α : Type} {f : Nat → List α} {width : Nat}
    (hf : ∀ z, (f z).length = width) {height z x : Nat} (hz : z < height) (hx : x < width) :
    ((List.range height).flatMap f)[z * width + x]? = (f z)[x]? := by
  have hlength (n : Nat) : ((List.range n).flatMap f).length = n * width := by
    induction n with
    | zero => simp
    | succ n ih => simp [List.range_succ, ih, hf, Nat.succ_mul]
  induction height with
  | zero => cases hz
  | succ height ih =>
    rw [List.range_succ, List.flatMap_append]
    -- The row is one of those before the last one, or the last one itself.
    rcases Nat.lt_succ_iff_lt_or_eq.mp hz with hbefore | rfl
    · have hlt : z * width + x < ((List.range height).flatMap f).length := by
        rw [hlength]
        calc z * width + x < z * width + width := Nat.add_lt_add_left hx _
          _ = (z + 1) * width := (Nat.succ_mul z width).symm
          _ ≤ height * width := Nat.mul_le_mul_right _ hbefore
      rw [List.getElem?_append_left hlt, ih hbefore]
    · rw [List.getElem?_append_right (by rw [hlength]; exact Nat.le_add_right _ _), hlength,
        Nat.add_sub_cancel_left]
      simp

/-- There is one cell for each tile. -/
theorem length_cells (g : Grid) : g.cells.length = g.tileCount := by
  simp [cells, tileCount, List.length_flatMap, Nat.mul_comm]

/-- The list of all cells is in row-major order. -/
theorem getElem?_cells {g : Grid} {c : Cell} (h : g.contains c = true) :
    g.cells[g.tileIndex c]? = some c := by
  obtain ⟨hx, hz⟩ := contains_iff.mp h
  rw [cells, tileIndex, getElem?_flatMap_range (fun z => by simp) hz hx]
  simp [hx]

/-- A rectangle holds exactly the cells between its corners. -/
theorem mem_rectangle_iff {low high c : Cell} :
    c ∈ rectangle low high ↔
      (low.x.toNat ≤ c.x.toNat ∧ c.x.toNat ≤ high.x.toNat) ∧
        low.z.toNat ≤ c.z.toNat ∧ c.z.toNat ≤ high.z.toNat := by
  have hx := high.x.toNat_lt
  have hz := high.z.toNat_lt
  simp only [rectangle, List.mem_flatMap, List.mem_map, List.mem_range'_1]
  constructor
  · rintro ⟨z, hzr, x, hxr, rfl⟩
    have hx' : x.toUInt32.toNat = x := UInt32.toNat_ofNat_of_lt' (by simp [UInt32.size]; omega)
    have hz' : z.toUInt32.toNat = z := UInt32.toNat_ofNat_of_lt' (by simp [UInt32.size]; omega)
    rw [hx', hz']
    omega
  · rintro ⟨hcx, hcz⟩
    exact ⟨c.z.toNat, by omega, c.x.toNat, by omega, by simp⟩

/-- Every cell of a rectangle comes once. -/
theorem nodup_rectangle (low high : Cell) : (rectangle low high).Nodup := by
  have hx := high.x.toNat_lt
  have hz := high.z.toNat_lt
  have inj {i j : Nat} (hi : i < 2 ^ 32) (hj : j < 2 ^ 32) (h : i.toUInt32 = j.toUInt32) :
      i = j := by
    have h' := congrArg UInt32.toNat h
    rwa [UInt32.toNat_ofNat_of_lt' hi, UInt32.toNat_ofNat_of_lt' hj] at h'
  -- Two cells of one row differ in `x`, cells of two rows in `z`.
  refine List.nodup_flatMap.mpr ⟨fun z _ => ?_, ?_⟩
  · refine List.Nodup.map_on (fun x hxr y hyr h => ?_) List.nodup_range'
    rw [List.mem_range'_1] at hxr hyr
    exact inj (by omega) (by omega) (congrArg Cell.x h)
  · refine List.Pairwise.imp_of_mem (fun {z w} hzr hwr hne => ?_) List.nodup_range'
    rw [List.mem_range'_1] at hzr hwr
    intro c hc hc'
    obtain ⟨x, -, rfl⟩ := List.mem_map.mp hc
    obtain ⟨y, -, h⟩ := List.mem_map.mp hc'
    exact hne (inj (by omega) (by omega) (congrArg Cell.z h).symm)

/-! ### Neighbours -/

/-- The neighbours of a cell are the tiles that adjoin it. -/
theorem mem_neighbours_iff {g : Grid} {c n : Cell} :
    n ∈ g.neighbours c ↔ g.contains n = true ∧ c.Adjoins n := by
  have hw := g.width.toNat_lt
  have hh := g.height.toNat_lt
  constructor
  · intro h
    refine ⟨contains_of_mem_neighbours h, ?_⟩
    simp only [neighbours, List.mem_filterMap] at h
    obtain ⟨⟨dx, dz⟩, hstep, h⟩ := h
    split at h
    case isFalse => cases h
    case isTrue hin =>
      simp only [inBounds, Bool.and_eq_true, decide_eq_true_eq] at hin
      cases h
      simp only [List.mem_cons, List.not_mem_nil, or_false, Prod.mk.injEq] at hstep
      unfold Cell.Adjoins
      rcases hstep with ⟨rfl, rfl⟩ | ⟨rfl, rfl⟩ | ⟨rfl, rfl⟩ | ⟨rfl, rfl⟩ <;>
        simp <;> omega
  · rintro ⟨hin, hadj⟩
    rw [contains_iff] at hin
    -- The step from `c` to `n` is one of the four; in each case the sums give `n` back.
    have back (dx dz : Int)
        (hstep : (dx, dz) ∈ ([(-1, 0), (1, 0), (0, -1), (0, 1)] : List (Int × Int)))
        (hx : (c.x.toNat : Int) + dx = n.x.toNat) (hz : (c.z.toNat : Int) + dz = n.z.toNat) :
        n ∈ g.neighbours c := by
      refine List.mem_filterMap.mpr ⟨(dx, dz), hstep, ?_⟩
      simp only [hx, hz]
      rw [if_pos (by simp [inBounds]; omega)]
      simp
    rcases hadj with ⟨he, h | h⟩ | ⟨he, h | h⟩
    · exact back 1 0 (by simp) (by omega) (by simp [he])
    · exact back (-1) 0 (by simp) (by omega) (by simp [he])
    · exact back 0 1 (by simp) (by simp [he]) (by omega)
    · exact back 0 (-1) (by simp) (by simp [he]) (by omega)

/-- Every neighbour comes once. -/
theorem nodup_neighbours (g : Grid) (c : Cell) : (g.neighbours c).Nodup := by
  refine List.Nodup.filterMap (fun p q n hp hq => ?_) (by decide)
  obtain ⟨dx, dz⟩ := p
  obtain ⟨ex, ez⟩ := q
  simp only [Option.mem_def, Option.ite_none_right_eq_some, inBounds, Bool.and_eq_true,
    decide_eq_true_eq, Option.some.injEq] at hp hq
  have hw := g.width.toNat_lt
  have hh := g.height.toNat_lt
  -- Both steps lead to tiles, so no coordinate wrapped and the steps are the same.
  obtain ⟨hpin, rfl⟩ := hp
  obtain ⟨hqin, h⟩ := hq
  have hx := congrArg (fun d : Cell => d.x.toNat) h
  have hz := congrArg (fun d : Cell => d.z.toNat) h
  simp at hx hz
  ext <;> simp <;> omega

/-! ### Keys -/

/-- The upper half of a key is the column and the lower half the row, each without
what does not fit 16 bits. -/
theorem toNat_key (c : Cell) :
    c.key.toNat = c.x.toNat % 65536 * 65536 + c.z.toNat % 65536 := by
  have hx := c.x.toNat_lt
  have hlow : c.z.toNat &&& 65535 = c.z.toNat % 65536 := Nat.and_two_pow_sub_one_eq_mod _ 16
  have hhigh : c.x.toNat <<< 16 % 2 ^ 32 = (c.x.toNat % 65536) <<< 16 := by
    rw [Nat.shiftLeft_eq, Nat.shiftLeft_eq]
    omega
  -- The row lies below the bits of the column, so that `or` is addition.
  simp only [Cell.key, UInt32.toNat_or, UInt32.toNat_and, UInt32.toNat_shiftLeft]
  rw [show (16 : UInt32).toNat % 32 = 16 from rfl, show (0xffff : UInt32).toNat = 65535 from rfl,
    hlow, hhigh, ← Nat.shiftLeft_eq _ 16]
  exact (Nat.shiftLeft_add_eq_or_of_lt (Nat.mod_lt _ (by omega)) _).symm

/-- Cells share a key exactly if their columns agree in 16 bits, and so do their rows. -/
theorem key_eq_key_iff {c d : Cell} :
    c.key = d.key ↔
      c.x.toNat % 65536 = d.x.toNat % 65536 ∧ c.z.toNat % 65536 = d.z.toNat % 65536 := by
  rw [← UInt32.toNat_inj, toNat_key, toNat_key]
  omega

/-- Tiles that share a key are one tile. -/
def KeysApart (g : Grid) : Prop :=
  ∀ c d, g.contains c = true → g.contains d = true → c.key = d.key → c = d

/-- The keys tell the tiles of a grid apart exactly if it has no more columns and rows
than 16 bits can count, or no tiles. -/
theorem keysApart_iff {g : Grid} :
    g.KeysApart ↔ g.tileCount = 0 ∨ g.width.toNat ≤ 65536 ∧ g.height.toNat ≤ 65536 := by
  constructor
  · intro h
    by_cases hnone : g.tileCount = 0
    · exact .inl hnone
    · -- The first cell beyond 16 bits would have the key of the first cell.
      have hpos : 0 < g.width.toNat ∧ 0 < g.height.toNat :=
        (Nat.mul_ne_zero_iff.mp hnone).imp Nat.pos_of_ne_zero Nat.pos_of_ne_zero
      have hfirst : g.contains ⟨0, 0⟩ = true := contains_iff.mpr hpos
      refine .inr ⟨?_, ?_⟩
      · by_contra hwide
        have hcell : g.contains ⟨65536, 0⟩ = true :=
          contains_iff.mpr ⟨Nat.not_le.mp hwide, hpos.2⟩
        exact absurd (h _ _ hcell hfirst (by decide)) (by decide)
      · by_contra htall
        have hcell : g.contains ⟨0, 65536⟩ = true :=
          contains_iff.mpr ⟨hpos.1, Nat.not_le.mp htall⟩
        exact absurd (h _ _ hcell hfirst (by decide)) (by decide)
  · intro h c d hc hd hkey
    have hindex := tileIndex_lt hc
    rw [contains_iff] at hc hd
    rw [key_eq_key_iff] at hkey
    exact Cell.ext_toNat (by omega) (by omega)

/-- A size for which keys tell all tiles apart: no more columns and rows than
`dimensionLimit`. -/
def FitsKeys (g : Grid) : Prop :=
  g.width.toNat ≤ dimensionLimit ∧ g.height.toNat ≤ dimensionLimit

/-- In a grid that fits, cells have different keys. -/
theorem FitsKeys.keysApart {g : Grid} (h : g.FitsKeys) : g.KeysApart :=
  keysApart_iff.mpr (.inr ⟨Nat.le_succ_of_le h.1, Nat.le_succ_of_le h.2⟩)

end Grid

end Battlemap
