import Battlemap.Proofs.Stitch.Landing
import Mathlib.Algebra.Ring.Int.Defs
import Mathlib.Data.Set.Function
import Mathlib.Dynamics.PeriodicPts.Defs

/-!
# `Battlemap.Proofs.Stitch.Turning`: quarter turns act on the cells of a grid

A grid with a cell in it is turned by a quarter as a whole (`Framed.turnedOnce`): the width
and the height change places, and the cell goes where its corner of the grid goes. The four
formulas of `Rotation.cell` and the two of `Rotation.size` are that one step, repeated
(`Framed.turned_eq`). Four steps lead back (`Framed.turnedOnce_four`), so rotations add up as
their quarter turns do modulo four (`Framed.turned_add`), and each one can be undone.

Cells are counted from a corner, so a turn moves them as well as turning them. The way from
one cell to another is only turned (`Rotation.way_cell`), by the same map of pairs
(`turnPair`) that turns the normal of a plane (`Plane.turned_eq`).

`Rotation.turns_act` puts this together. That the formulas stay within 32 bits is said of
`Rotation.cell?`, which takes no count from a smaller one.
-/

set_option autoImplicit false

namespace Battlemap

/-- A pair turned by a quarter, from the first axis towards the second. -/
def turnPair {α : Type} [Neg α] (p : α × α) : α × α := (-p.2, p.1)

/-- The difference of two counts, if there is one. -/
def checkedSub (a b : UInt32) : Option UInt32 := if b ≤ a then some (a - b) else none

/-- An index counted from the other end of an axis, if it is one of the axis. -/
def mirror? (count i : UInt32) : Option UInt32 := do checkedSub (← checkedSub count 1) i

/-- An index of an axis can be counted from the other end. -/
theorem mirror?_eq_some {count i : UInt32} (h : i < count) :
    mirror? count i = some (count - 1 - i) := by
  have hpos : 1 ≤ count := by
    rw [UInt32.le_iff_toNat_le]
    exact Nat.one_le_of_lt (UInt32.lt_iff_toNat_lt.mp h)
  have hle : i ≤ count - 1 := by
    rw [UInt32.le_iff_toNat_le, UInt32.toNat_sub_of_le _ _ hpos]
    exact Nat.le_sub_one_of_lt (UInt32.lt_iff_toNat_lt.mp h)
  rw [mirror?, checkedSub, if_pos hpos, Option.bind_eq_bind, Option.bind_some, checkedSub,
    if_pos hle]

/-! ### Turning a grid with a cell in it -/

/-- A grid, of which only the size counts, with a cell. -/
structure Framed where
  width : UInt32
  height : UInt32
  cell : Cell

namespace Framed

/-- The grid and its cell turned by a quarter. -/
def turnedOnce (f : Framed) : Framed where
  width := f.height
  height := f.width
  cell := ⟨f.height - 1 - f.cell.z, f.cell.x⟩

/-- The grid and its cell after a rotation. -/
def turned (r : Rotation) (f : Framed) : Framed where
  width := (r.size f.width f.height).1
  height := (r.size f.width f.height).2
  cell := r.cell f.width f.height f.cell

/-- Counting twice from the other end leads back. -/
theorem mirror_mirror (count i : UInt32) : count - 1 - (count - 1 - i) = i := by
  grind

/-- Four quarter turns lead back. -/
theorem turnedOnce_four (f : Framed) : turnedOnce^[4] f = f := by
  show Framed.mk f.width f.height
    ⟨f.width - 1 - (f.width - 1 - f.cell.x), f.height - 1 - (f.height - 1 - f.cell.z)⟩ = f
  rw [mirror_mirror, mirror_mirror]

/-- A rotation is its quarter turns, one after the other. -/
theorem turned_eq (r : Rotation) (f : Framed) : turned r f = turnedOnce^[r.quarterTurns] f := by
  cases r with
  | none => rfl
  | quarter => rfl
  | half => rfl
  | threeQuarters =>
    show _ = Framed.mk f.height f.width
      ⟨f.height - 1 - (f.height - 1 - f.cell.z), f.width - 1 - f.cell.x⟩
    rw [mirror_mirror]
    rfl

end Framed

/-! ### Rotations add up -/

namespace Rotation

/-- The rotation by some quarter turns. -/
def ofQuarterTurns (n : Nat) : Rotation :=
  match n % 4 with
  | 0 => none
  | 1 => quarter
  | 2 => half
  | _ => threeQuarters

/-- One rotation after another. -/
instance : Add Rotation := ⟨fun r s => ofQuarterTurns (r.quarterTurns + s.quarterTurns)⟩

/-- The rotation that leads back. -/
instance : Neg Rotation := ⟨fun r => ofQuarterTurns (4 - r.quarterTurns)⟩

/-- The quarter turns of a sum of rotations add up modulo four. -/
theorem quarterTurns_add (r s : Rotation) :
    (r + s).quarterTurns = (r.quarterTurns + s.quarterTurns) % 4 := by
  cases r <;> cases s <;> rfl

/-- A rotation followed by the one that leads back is none. -/
theorem add_neg (r : Rotation) : r + -r = none := by cases r <;> rfl

/-- The same holds the other way round. -/
theorem neg_add (r : Rotation) : -r + r = none := by cases r <;> rfl

end Rotation

/-- Two rotations, one after the other, are one by the sum of their quarter turns. -/
theorem Framed.turned_add (r s : Rotation) (f : Framed) :
    turned (r + s) f = turned s (turned r f) := by
  rw [turned_eq, turned_eq, turned_eq, Rotation.quarterTurns_add, ← Function.iterate_add_apply,
    Nat.add_comm r.quarterTurns]
  -- Four more steps make no difference.
  exact Function.IsPeriodicPt.iterate_mod_apply (turnedOnce_four f) _

namespace Rotation

/-- The sizes of turned grids follow the sum of the rotations. -/
theorem size_add (r s : Rotation) (width height : UInt32) :
    (r + s).size width height = s.size (r.size width height).1 (r.size width height).2 := by
  have h := Framed.turned_add r s ⟨width, height, ⟨0, 0⟩⟩
  exact Prod.ext (congrArg Framed.width h) (congrArg Framed.height h)

/-- Turned cells follow the sum of the rotations. -/
theorem cell_add (r s : Rotation) (width height : UInt32) (c : Cell) :
    (r + s).cell width height c
      = s.cell (r.size width height).1 (r.size width height).2 (r.cell width height c) :=
  congrArg Framed.cell (Framed.turned_add r s ⟨width, height, c⟩)

/-! ### The cells of a turned grid -/

/-- The cells of a grid of some size. -/
def cellsOf (size : UInt32 × UInt32) : Set Cell := {c | c.x < size.1 ∧ c.z < size.2}

/-- The cell after a rotation, in 32 bits without a carry; none if a count is taken from a
smaller one. -/
def cell? (r : Rotation) (width height : UInt32) (c : Cell) : Option Cell :=
  match r with
  | none => some c
  | quarter => do return ⟨← mirror? height c.z, c.x⟩
  | half => do return ⟨← mirror? width c.x, ← mirror? height c.z⟩
  | threeQuarters => do return ⟨c.z, ← mirror? width c.x⟩

variable {width height : UInt32} {c d : Cell}

/-- No count is taken from a smaller one for a cell of the grid. -/
theorem cell?_eq_some (r : Rotation) (hc : c ∈ cellsOf (width, height)) :
    r.cell? width height c = some (r.cell width height c) := by
  have hx := mirror?_eq_some hc.1
  have hz := mirror?_eq_some hc.2
  cases r <;> simp [cell?, cell, hx, hz]

/-- A rotation leads the cells of a grid to those of the turned grid, one to one. -/
theorem bijOn_cell (r : Rotation) (width height : UInt32) :
    Set.BijOn (r.cell width height) (cellsOf (width, height)) (cellsOf (r.size width height)) := by
  have hmaps (r : Rotation) (width height : UInt32) :
      Set.MapsTo (r.cell width height) (cellsOf (width, height))
        (cellsOf (r.size width height)) := by
    intro c hc
    exact r.cell_lt hc.1 hc.2
  refine ⟨hmaps r width height, ?_, ?_⟩
  · intro c hc d hd hcd
    exact r.cell_inj hc.1 hc.2 hd.1 hd.2 (congrArg (·.x.toNat) hcd) (congrArg (·.z.toNat) hcd)
  · intro d hd
    -- Turning back and forth again leads to the same cell.
    have hsize : (-r).size (r.size width height).1 (r.size width height).2 = (width, height) := by
      rw [← size_add, add_neg]
      rfl
    have hback : (-r).cell _ _ d
        ∈ cellsOf ((-r).size (r.size width height).1 (r.size width height).2) :=
      hmaps (-r) _ _ hd
    rw [hsize] at hback
    refine ⟨_, hback, ?_⟩
    have hcell := cell_add (-r) r (r.size width height).1 (r.size width height).2 d
    rw [hsize, neg_add] at hcell
    exact hcell.symm

/-! ### Ways -/

/-- The way from one cell to another, as signed numbers of columns and rows. -/
def way (c d : Cell) : ℤ × ℤ := ((d.x.toNat : ℤ) - c.x.toNat, (d.z.toNat : ℤ) - c.z.toNat)

/-- The way along an axis is reversed by counting from its other end. -/
theorem mirror_sub_mirror {count i j : UInt32} (hi : i < count) (hj : j < count) :
    ((count - 1 - j).toNat : ℤ) - (count - 1 - i).toNat = -((j.toNat : ℤ) - i.toNat) := by
  have hi' := UInt32.lt_iff_toNat_lt.mp hi
  have hj' := UInt32.lt_iff_toNat_lt.mp hj
  have hmi := toNat_mirror hi'
  have hmj := toNat_mirror hj'
  omega

/-- The way between two cells is turned as a pair. -/
theorem way_cell (r : Rotation) (hc : c ∈ cellsOf (width, height))
    (hd : d ∈ cellsOf (width, height)) :
    way (r.cell width height c) (r.cell width height d)
      = turnPair^[r.quarterTurns] (way c d) := by
  have hx := mirror_sub_mirror hc.1 hd.1
  have hz := mirror_sub_mirror hc.2 hd.2
  cases r with
  | none => rfl
  | quarter => exact Prod.ext hz rfl
  | half => exact Prod.ext hx hz
  | threeQuarters => exact Prod.ext (neg_neg _).symm hx

end Rotation

/-- A turned plane has its normal turned as a pair, and nothing else of it changes. -/
theorem Plane.turned_eq (p : Plane) (n : Nat) :
    ((p.turned n).normal.x, (p.turned n).normal.z) = turnPair^[n % 4] (p.normal.x, p.normal.z)
      ∧ (p.turned n).normal.y = p.normal.y ∧ (p.turned n).offset = p.offset := by
  rw [turned]
  generalize n % 4 = m
  induction m with
  | zero => exact ⟨rfl, rfl, rfl⟩
  | succ m ih =>
    obtain ⟨hpair, hy, hoffset⟩ := ih
    refine ⟨?_, hy, hoffset⟩
    rw [Function.iterate_succ_apply', ← hpair]
    rfl

/-- Rotations act on the cells of every grid, in the sense in which they turn planes. -/
theorem Rotation.turns_act (r : Rotation) (width height : UInt32) :
    -- The cells go to those of the turned grid, one to one, and without an underflow.
    Set.BijOn (r.cell width height) (cellsOf (width, height)) (cellsOf (r.size width height))
      ∧ (∀ c ∈ cellsOf (width, height), r.cell? width height c = some (r.cell width height c))
      -- A second rotation, of the turned grid, adds its quarter turns.
      ∧ (∀ s : Rotation, (r + s).quarterTurns = (r.quarterTurns + s.quarterTurns) % 4
        ∧ (r + s).size width height = s.size (r.size width height).1 (r.size width height).2
        ∧ ∀ c, (r + s).cell width height c
          = s.cell (r.size width height).1 (r.size width height).2 (r.cell width height c))
      -- The way between two cells is turned as the horizontal part of a normal is.
      ∧ (∀ c ∈ cellsOf (width, height), ∀ d ∈ cellsOf (width, height),
        way (r.cell width height c) (r.cell width height d)
          = turnPair^[r.quarterTurns] (way c d))
      ∧ ∀ p : Plane, ((p.turned r.quarterTurns).normal.x, (p.turned r.quarterTurns).normal.z)
        = turnPair^[r.quarterTurns] (p.normal.x, p.normal.z) := by
  refine ⟨bijOn_cell r width height, fun c hc => cell?_eq_some r hc, fun s => ?_,
    fun c hc d hd => way_cell r hc hd, fun p => ?_⟩
  · exact ⟨quarterTurns_add r s, size_add r s width height, cell_add r s width height⟩
  · have hlt : r.quarterTurns % 4 = r.quarterTurns := by cases r <;> rfl
    have h := (p.turned_eq r.quarterTurns).1
    rwa [hlt] at h

end Battlemap
