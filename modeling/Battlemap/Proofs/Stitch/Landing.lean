import Battlemap.Proofs.Stitch.Copying

/-!
# `Battlemap.Proofs.Stitch.Landing`: turned cells and the cells that land together

A quarter turn sends the cells of a grid to those of the turned grid, each to another one
(`Rotation.cell_lt`, `Rotation.cell_inj`). A parcel is turned and then moved as a whole, so
no two of its own cells land on one tile (`Parcel.LandsOn.source_inj`): whatever meets in
the destination comes from two parcels.
-/

set_option autoImplicit false

namespace Battlemap

/-! ### Row-major order -/

/-- A cell stands in row-major order where its index says. -/
theorem Grid.tileIndex_of_getElem?_cells {g : Grid} {i : Nat} {c : Cell}
    (h : g.cells[i]? = some c) : i = g.tileIndex c := by
  have hi : i < g.tileCount := g.length_cells ▸ (List.getElem?_eq_some_iff.mp h).1
  obtain ⟨d, hd, rfl⟩ := Grid.exists_tileIndex hi
  rw [Grid.getElem?_cells hd] at h
  cases h
  rfl

/-- The cells in front of a cell in row-major order are those of lesser index. -/
theorem Grid.mem_of_tileIndex_lt {g : Grid} {early late : List Cell} {c e : Cell}
    (hcells : g.cells = early ++ c :: late) (he : g.contains e = true)
    (hlt : g.tileIndex e < g.tileIndex c) : e ∈ early := by
  have hc : g.cells[early.length]? = some c := by simp [hcells]
  rw [← Grid.tileIndex_of_getElem?_cells hc] at hlt
  have hget := Grid.getElem?_cells he
  rw [hcells, List.getElem?_append_left hlt] at hget
  exact List.mem_of_getElem? hget

/-! ### Turned cells -/

/-- An index counted from the other end of an axis. -/
theorem toNat_mirror {count i : UInt32} (h : i.toNat < count.toNat) :
    (count - 1 - i).toNat = count.toNat - 1 - i.toNat := by
  have hlast : (count - 1).toNat = count.toNat - 1 :=
    UInt32.toNat_sub_of_le count 1 (UInt32.le_iff_toNat_le.mpr (Nat.one_le_of_lt h))
  have hle : i ≤ count - 1 := by
    rw [UInt32.le_iff_toNat_le]
    omega
  rw [UInt32.toNat_sub_of_le _ _ hle, hlast]

namespace Rotation

variable {width height : UInt32} {c d : Cell}

/-- A turned cell is a cell of the turned grid. -/
theorem cell_lt (r : Rotation) (hx : c.x.toNat < width.toNat) (hz : c.z.toNat < height.toNat) :
    (r.cell width height c).x.toNat < (r.size width height).1.toNat ∧
      (r.cell width height c).z.toNat < (r.size width height).2.toNat := by
  have hwidth := toNat_mirror hx
  have hheight := toNat_mirror hz
  -- Each coordinate of a turned cell is one of the cell or is counted from the other end.
  cases r with
  | none => exact ⟨hx, hz⟩
  | quarter =>
    refine ⟨?_, hx⟩
    show (height - 1 - c.z).toNat < height.toNat
    omega
  | half =>
    constructor
    · show (width - 1 - c.x).toNat < width.toNat
      omega
    · show (height - 1 - c.z).toNat < height.toNat
      omega
  | threeQuarters =>
    refine ⟨hz, ?_⟩
    show (width - 1 - c.x).toNat < width.toNat
    omega

/-- Different cells are turned to different cells. -/
theorem cell_inj (r : Rotation) (hcx : c.x.toNat < width.toNat) (hcz : c.z.toNat < height.toNat)
    (hdx : d.x.toNat < width.toNat) (hdz : d.z.toNat < height.toNat)
    (hx : (r.cell width height c).x.toNat = (r.cell width height d).x.toNat)
    (hz : (r.cell width height c).z.toNat = (r.cell width height d).z.toNat) : c = d := by
  have hcwidth := toNat_mirror hcx
  have hcheight := toNat_mirror hcz
  have hdwidth := toNat_mirror hdx
  have hdheight := toNat_mirror hdz
  -- In each case the turn swaps the axes or mirrors them, which can be undone.
  cases r with
  | none => exact Cell.ext_toNat hx hz
  | quarter =>
    have hrow : (height - 1 - c.z).toNat = (height - 1 - d.z).toNat := hx
    exact Cell.ext_toNat hz (by omega)
  | half =>
    have hcolumn : (width - 1 - c.x).toNat = (width - 1 - d.x).toNat := hx
    have hrow : (height - 1 - c.z).toNat = (height - 1 - d.z).toNat := hz
    exact Cell.ext_toNat (by omega) (by omega)
  | threeQuarters =>
    have hcolumn : (width - 1 - c.x).toNat = (width - 1 - d.x).toNat := hz
    exact Cell.ext_toNat (by omega) hx

end Rotation

namespace Parcel

variable {p : Parcel} {g : Grid} {c d e : Cell}

/-- Only cells of the parcel land anywhere. -/
theorem LandsOn.contains (h : p.LandsOn g c d) : p.board.grid.contains c = true := by
  obtain ⟨tile, htile, -⟩ := h.occupied
  exact Board.contains_of_tile? htile

/-- No two cells of one parcel land on one tile. -/
theorem LandsOn.source_inj (hc : p.LandsOn g c d) (he : p.LandsOn g e d) : c = e := by
  obtain ⟨hcx, hcz⟩ := Grid.contains_iff.mp hc.contains
  obtain ⟨hex, hez⟩ := Grid.contains_iff.mp he.contains
  have hx := hc.x.symm.trans he.x
  have hz := hc.z.symm.trans he.z
  exact p.rotation.cell_inj hcx hcz hex hez (by omega) (by omega)

end Parcel

end Battlemap
