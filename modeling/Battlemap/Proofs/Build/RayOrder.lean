import Battlemap.Build.HeightField
import Battlemap.Proofs.Number.Order
import Battlemap.Proofs.Success

/-!
# `Battlemap.Proofs.Build.RayOrder`: the stack of a ray is ordered

The fragments that are kept of a ray ascend, because they are a part of
the sorted ones (`Fragment.pairwise_castRay`). So where a ray has the
floor of a level it has the floors of all levels below it, and none of
these is higher (`Ascends.exists_below`).

For a tile as a whole this says that the lowest floors of its levels
ascend (`floorMin_le_floorMin`), however the rays differ.
-/

set_option autoImplicit false

namespace Battlemap

/-- Where there are no polygons a ray only meets boxes. -/
theorem castRay_boxes {targets : Targets} {ray : VerticalRay} (h : targets.polygons = []) :
    castRay targets ray = (targets.boxes.flatMap fun target =>
      boxFragments ray target.1 target.2).mergeSort Fragment.precedes := by
  rw [castRay, h]
  simp only [List.filterMap_nil, List.append_nil]

namespace Fragment

/-! ### Sorted fragments -/

/-- A fragment may stand before a higher one, and before one of its own height unless it is an
entry and the other an exit. -/
theorem precedes_iff {a b : Fragment} : a.precedes b = true ↔
    a.height.totalKey < b.height.totalKey ∨
      a.height.totalKey = b.height.totalKey ∧ (a.isEntry = true → b.isEntry = true) := by
  unfold precedes
  split
  case isTrue heq => simp [heq]; cases a.isEntry <;> simp
  case isFalse hne => simp [hne]

/-- The order in which fragments are sorted is transitive. -/
theorem precedes_trans (a b c : Fragment) (hab : a.precedes b = true) (hbc : b.precedes c = true) :
    a.precedes c = true := by
  rw [precedes_iff] at *
  rcases hab with hab | ⟨hab, hentry⟩ <;> rcases hbc with hbc | ⟨hbc, hentry'⟩
  · exact .inl (Int.lt_trans hab hbc)
  · exact .inl (hbc ▸ hab)
  · exact .inl (hab ▸ hbc)
  · exact .inr ⟨hab.trans hbc, hentry' ∘ hentry⟩

/-- Of two fragments one at least may stand before the other. -/
theorem precedes_total (a b : Fragment) : (a.precedes b || b.precedes a) = true := by
  rw [Bool.or_eq_true, precedes_iff, precedes_iff]
  rcases Int.lt_trichotomy a.height.totalKey b.height.totalKey with h | h | h
  · exact .inl (.inl h)
  · cases hentry : a.isEntry
    · exact .inl (.inr ⟨h, fun hfalse => by cases hfalse⟩)
    · exact .inr (.inr ⟨h.symm, fun _ => rfl⟩)
  · exact .inr (.inl h)

/-- A ray meets its fragments at rising heights. -/
theorem pairwise_castRay (targets : Targets) (ray : VerticalRay) :
    (castRay targets ray).Pairwise fun f g => f.height.totalKey ≤ g.height.totalKey := by
  refine List.Pairwise.imp (fun h => ?_) (List.pairwise_mergeSort precedes_trans precedes_total _)
  rcases precedes_iff.mp h with h | ⟨h, -⟩ <;> omega

/-- The fragments that alternate are some of the given ones, in their order. -/
theorem alternating_sublist (inside : Bool) (fragments : List Fragment) :
    (alternating inside fragments).Sublist fragments := by
  induction fragments generalizing inside with
  | nil => exact List.Sublist.slnil
  | cons f rest ih =>
    rw [alternating]
    split
    · exact (ih _).cons_cons f
    · exact (ih _).cons f

/-! ### Stacks of rays -/

/-- The fragments of a ray ascend, and their heights are finite. -/
structure Ascends (fragments : List Fragment) : Prop where
  finite : ∀ f ∈ fragments, f.height.isFinite = true
  ordered : fragments.Pairwise fun f g => f.height ≤ g.height

/-- What is kept of a ray that meets finite surfaces only ascends. -/
theorem ascends_parityFilter {targets : Targets} {ray : VerticalRay}
    (h : (castRay targets ray).all isFinite = true) :
    Ascends (parityFilter (castRay targets ray)) := by
  have hfinite : ∀ f ∈ castRay targets ray, f.height.isFinite = true := fun f hf =>
    (Bool.and_eq_true_iff.mp (List.all_eq_true.mp h f hf)).1
  have hkept := alternating_sublist false (castRay targets ray)
  refine ⟨fun f hf => hfinite f (hkept.subset hf), ?_⟩
  refine ((pairwise_castRay targets ray).sublist hkept).imp_of_mem fun {f g} hf hg hle => ?_
  exact Single.le_of_totalKey_le (Single.isNaN_of_isFinite (hfinite f (hkept.subset hf)))
    (Single.isNaN_of_isFinite (hfinite g (hkept.subset hg))) hle

namespace Ascends

variable {ray : Array Fragment}

/-- The heights of an ascending ray are finite. -/
theorem isFinite (h : Ascends ray.toList) {i : Nat} {f : Fragment} (hf : ray[i]? = some f) :
    f.height.isFinite = true :=
  h.finite f (Array.mem_toList_iff.mpr (Array.mem_of_getElem? hf))

/-- Below each fragment of a ray there are as many as there should be, and none
of them is higher. -/
theorem exists_below (h : Ascends ray.toList) {i j : Nat} (hij : i ≤ j) {g : Fragment}
    (hg : ray[j]? = some g) : ∃ f, ray[i]? = some f ∧ f.height ≤ g.height := by
  obtain ⟨hj, rfl⟩ := Array.getElem?_eq_some_iff.mp hg
  have hi : i < ray.size := Nat.lt_of_le_of_lt hij hj
  refine ⟨ray[i], Array.getElem?_eq_getElem hi, ?_⟩
  rcases hij.lt_or_eq with hlt | rfl
  · exact List.pairwise_iff_getElem.mp h.ordered i j _ _ hlt
  · exact Single.le_refl (Single.isNaN_of_isFinite (h.isFinite hg))

end Ascends

end Fragment

namespace SampledTile

/-- A ray of a sampled tile has what is kept of the fragments that it met, which were all
finite. -/
theorem exists_cast_of_mem_rays {solids : Array Solid} {g : Grid} {start : Single} {bin : TileBin}
    {ray : Array Fragment} (h : ray ∈ (SampledTile.of solids g start bin).rays) :
    ∃ n, let fragments := castRay (bin.targets solids) (g.ray bin.cell start n)
      fragments.all Fragment.isFinite = true ∧ ray = (parityFilter fragments).toArray := by
  unfold SampledTile.of at h
  split at h
  case h_1 => simp [unsampled] at h
  case h_2 rays hrays =>
    dsimp only at h
    split at h
    case isTrue => simp [unsampled] at h
    case isFalse =>
      have hmem : some ray ∈ rays.map some := List.mem_map_of_mem (List.mem_toArray.mp h)
      rw [castAll, mapM_eq_some_iff] at hrays
      rw [← hrays] at hmem
      obtain ⟨n, -, hn⟩ := List.mem_map.mp hmem
      rw [Option.ite_none_right_eq_some] at hn
      exact ⟨n, hn.1, (Option.some.inj hn.2).symm⟩

/-- A sampled tile has all its rays, or it has none and no levels. -/
theorem size_rays_of (solids : Array Solid) (g : Grid) (start : Single) (bin : TileBin) :
    (SampledTile.of solids g start bin).rays.size = raysPerTile ∨
      (SampledTile.of solids g start bin).rays.size = 0 ∧
        (SampledTile.of solids g start bin).layerCount = 0 := by
  unfold SampledTile.of
  split
  case h_1 => exact .inr ⟨rfl, rfl⟩
  case h_2 rays hrays =>
    rw [castAll, mapM_eq_some_iff] at hrays
    have hlength := congrArg List.length hrays
    rw [List.length_map, List.length_map, List.length_range] at hlength
    dsimp only
    split
    case isTrue => exact .inr ⟨rfl, rfl⟩
    case isFalse => exact .inl hlength.symm

/-- All rays of a tile have ordered stacks. -/
def Ordered (t : SampledTile) : Prop := ∀ ray ∈ t.rays, Fragment.Ascends ray.toList

/-- Sampling gives rays that ascend. -/
theorem ordered_of (solids : Array Solid) (g : Grid) (start : Single) (bin : TileBin) :
    (SampledTile.of solids g start bin).Ordered := by
  intro ray hray
  obtain ⟨n, hfinite, rfl⟩ := exists_cast_of_mem_rays hray
  exact Fragment.ascends_parityFilter hfinite

/-! ### The lowest floors -/

/-- The least floor of a level is the least height among the floors of its rays. -/
theorem floorMin_eq_least (t : SampledTile) (minNormalY : Single) (layer : Nat) :
    (LayerStatistics.of minNormalY t layer).floorMin
      = Single.least ((t.slot (2 * layer)).map Fragment.height) := by
  rw [Single.least, List.foldl_map]
  rfl

/-- The heights of a sampled tile are finite. -/
theorem Ordered.isFinite_of_mem_slot {t : SampledTile} (h : t.Ordered) {place : Nat}
    {f : Fragment} (hf : f ∈ t.slot place) : f.height.isFinite = true := by
  obtain ⟨ray, hray, hf⟩ := List.mem_filterMap.mp hf
  exact (h ray (Array.mem_toList_iff.mp hray)).isFinite hf

/-- The lowest floors of the levels of a tile ascend. -/
theorem Ordered.floorMin_le_floorMin {t : SampledTile} (h : t.Ordered) (minNormalY : Single)
    {i j : Nat} (hij : i ≤ j) :
    (LayerStatistics.of minNormalY t i).floorMin
      ≤ (LayerStatistics.of minNormalY t j).floorMin := by
  have hmem (place : Nat) {a : Single} : a ∈ (t.slot place).map Fragment.height ↔
      ∃ ray ∈ t.rays, ∃ f, ray[place]? = some f ∧ f.height = a := by
    simp only [slot, List.mem_map, List.mem_filterMap, Array.mem_toList_iff]
    constructor
    · rintro ⟨f, ⟨ray, hray, hf⟩, ha⟩
      exact ⟨ray, hray, f, hf, ha⟩
    · rintro ⟨ray, hray, f, hf, ha⟩
      exact ⟨f, ⟨ray, hray, hf⟩, ha⟩
  have hnumber (place : Nat) : ∀ a ∈ (t.slot place).map Fragment.height, a.isNaN = false := by
    intro a ha
    obtain ⟨f, hf, rfl⟩ := List.mem_map.mp ha
    exact Single.isNaN_of_isFinite (h.isFinite_of_mem_slot hf)
  rw [floorMin_eq_least, floorMin_eq_least]
  refine Single.least_le_least (hnumber _) (hnumber _) fun b hb => ?_
  -- The same ray has a floor of the lower level.
  obtain ⟨ray, hray, g, hg, rfl⟩ := (hmem _).mp hb
  obtain ⟨f, hf, hle⟩ := (h ray hray).exists_below (Nat.mul_le_mul_left 2 hij) hg
  exact ⟨f.height, (hmem _).mpr ⟨ray, hray, f, hf, rfl⟩, hle⟩

end SampledTile

end Battlemap
