import Battlemap.Proofs.Build.RayOrder
import Mathlib.Order.Bounds.Defs

/-!
# `Battlemap.Proofs.Build.Alternation`: what is kept of a ray

A ray keeps the fragments that come in turn, and drops the others. What is kept alternates
between entries and exits (`alternates_alternating`), and a stack that alternates already is
kept as it is (`alternating_of_alternates`).

Keeping each fragment that comes in turn is the best choice: no alternating part of the
fragments is longer (`length_le_alternating`). The exchange argument behind it is
`length_alternating_le`: a ray that starts on the wrong side of a surface loses one fragment
at most, so it never pays to let one go by that comes in turn.

`SampledTile.rays_in_turn` says what this means for a tile. Even places of its rays hold
entries and odd ones exits, which is why the floors of level `l` are at place `2 l` and its
ceilings at `2 l + 1`; and the number of levels is the least one that covers every ray.
-/

set_option autoImplicit false

namespace Battlemap

namespace Fragment

/-- Entries and exits alternate, as far as a ray goes that starts inside a solid or not. -/
def Alternates (inside : Bool) : List Fragment → Prop
  | [] => True
  | f :: rest => f.isEntry = !inside ∧ Alternates (!inside) rest

/-- Fragments are in turn if the ones at even places are entries, and no others. -/
def InTurn (fragments : List Fragment) : Prop :=
  ∀ (k : Nat) (f : Fragment), fragments[k]? = some f → (f.isEntry = true ↔ k % 2 = 0)

/-- The place of a fragment says whether it is an entry. -/
theorem alternates_iff {inside : Bool} {fragments : List Fragment} :
    Alternates inside fragments ↔ ∀ (k : Nat) (f : Fragment), fragments[k]? = some f →
      f.isEntry = (decide (k % 2 = 0) != inside) := by
  -- Behind the first fragment the stack goes on from the other side, where even places become
  -- odd.
  induction fragments generalizing inside with
  | nil => simp [Alternates]
  | cons g rest ih =>
    rw [Alternates, ih]
    constructor
    · rintro ⟨hfirst, hrest⟩ k f hf
      cases k with
      | zero =>
        cases hf
        rw [hfirst]
        cases inside <;> rfl
      | succ k =>
        rw [hrest k f hf, decide_eq_decide.mpr (by omega : (k + 1) % 2 = 0 ↔ ¬ k % 2 = 0),
          decide_not]
        cases inside <;> simp
    · intro h
      refine ⟨?_, fun k f hf => ?_⟩
      · rw [h 0 g rfl]
        cases inside <;> rfl
      · rw [h (k + 1) f hf, decide_eq_decide.mpr (by omega : (k + 1) % 2 = 0 ↔ ¬ k % 2 = 0),
          decide_not]
        cases inside <;> simp

/-- Fragments are in turn if they alternate from outside of all solids. -/
theorem inTurn_iff {fragments : List Fragment} :
    InTurn fragments ↔ Alternates false fragments := by
  rw [alternates_iff]
  refine forall_congr' fun k => forall_congr' fun f => imp_congr_right fun _ => ?_
  rw [Bool.bne_false, Bool.eq_iff_iff (b := decide (k % 2 = 0)), decide_eq_true_eq]

/-! ### What is kept -/

variable {inside : Bool} {f : Fragment}

/-- A fragment in turn is kept, and the next one has to be of the other kind. -/
theorem alternating_cons_of_turn (h : f.isEntry = !inside) (rest : List Fragment) :
    alternating inside (f :: rest) = f :: alternating (!inside) rest := by
  rw [alternating, if_pos (by rw [h]; cases inside <;> rfl)]

/-- A fragment out of turn is dropped. -/
theorem alternating_cons_of_not_turn (h : f.isEntry = inside) (rest : List Fragment) :
    alternating inside (f :: rest) = alternating inside rest := by
  rw [alternating, if_neg (by simp [h])]

/-- What is kept alternates. -/
theorem alternates_alternating (inside : Bool) (fragments : List Fragment) :
    Alternates inside (alternating inside fragments) := by
  induction fragments generalizing inside with
  | nil => trivial
  | cons f rest ih =>
    rcases Bool.eq_or_eq_not f.isEntry inside with h | h
    · rw [alternating_cons_of_not_turn h]
      exact ih inside
    · rw [alternating_cons_of_turn h]
      exact ⟨h, ih _⟩

/-- Nothing is dropped where entries and exits alternate. -/
theorem alternating_of_alternates {fragments : List Fragment} (h : Alternates inside fragments) :
    alternating inside fragments = fragments := by
  induction fragments generalizing inside with
  | nil => rfl
  | cons f rest ih =>
    obtain ⟨hfirst, hrest⟩ := h
    rw [alternating_cons_of_turn hfirst, ih hrest]

/-- Starting on the other side of a surface gains one fragment at most. -/
theorem length_alternating_le (inside : Bool) (fragments : List Fragment) :
    (alternating (!inside) fragments).length ≤ (alternating inside fragments).length + 1 := by
  induction fragments generalizing inside with
  | nil => exact Nat.zero_le _
  | cons f rest ih =>
    -- The fragment comes in turn on one of the two sides.
    rcases Bool.eq_or_eq_not f.isEntry inside with h | h
    · rw [alternating_cons_of_not_turn h,
        alternating_cons_of_turn (by rw [Bool.not_not]; exact h), Bool.not_not]
      exact Nat.le_refl _
    · rw [alternating_cons_of_not_turn h, alternating_cons_of_turn h, List.length_cons]
      omega

/-- No alternating part of the fragments is longer than what is kept. -/
theorem length_le_alternating {other fragments : List Fragment} (hpart : other.Sublist fragments)
    (h : Alternates inside other) : other.length ≤ (alternating inside fragments).length := by
  induction hpart generalizing inside with
  | slnil => exact Nat.le_refl 0
  | @cons other rest f hpart ih =>
    -- The part does without the first fragment, which is kept if it comes in turn.
    rcases Bool.eq_or_eq_not f.isEntry inside with hf | hf
    · rw [alternating_cons_of_not_turn hf]
      exact ih h
    · rw [alternating_cons_of_turn hf]
      have hturn := length_alternating_le (!inside) rest
      rw [Bool.not_not] at hturn
      exact Nat.le_trans (ih h) hturn
  | @cons_cons other rest f hpart ih =>
    obtain ⟨hfirst, hrest⟩ := h
    rw [alternating_cons_of_turn hfirst]
    exact Nat.succ_le_succ (ih hrest)

end Fragment

namespace SampledTile

/-! ### The rays of a tile -/

/-- A ray is covered if it has no more fragments than the levels have floors and ceilings. -/
theorem halves_le_iff {size n : Nat} : (size + 1) / 2 ≤ n ↔ size ≤ 2 * n := by omega

/-- The levels that some rays need are bounded as the rays are. -/
theorem foldl_halves_le_iff {rays : List (Array Fragment)} {most n : Nat} :
    rays.foldl (fun most ray => max most ((ray.size + 1) / 2)) most ≤ n ↔
      most ≤ n ∧ ∀ ray ∈ rays, ray.size ≤ 2 * n := by
  induction rays generalizing most with
  | nil => simp
  | cons ray rest ih =>
    rw [List.foldl_cons, ih, Nat.max_le, halves_le_iff, List.forall_mem_cons, and_assoc]

/-- The levels that some rays need are the least ones that cover every ray. -/
theorem isLeast_layersOf (rays : Array (Array Fragment)) :
    IsLeast {n | ∀ ray ∈ rays, ray.size ≤ 2 * n} (layersOf rays) := by
  have hbound (n : Nat) : layersOf rays ≤ n ↔ ∀ ray ∈ rays, ray.size ≤ 2 * n := by
    rw [layersOf, ← Array.foldl_toList, foldl_halves_le_iff]
    simp
  exact ⟨(hbound _).mp (Nat.le_refl _), fun n hn => (hbound n).mpr hn⟩

variable (solids : Array Solid) (g : Grid) (start : Single) (bin : TileBin)

/-- The fragments that a ray of a tile meets. -/
def metBy (n : Nat) : List Fragment := castRay (bin.targets solids) (g.ray bin.cell start n)

/-- What the rays of a tile keep. -/
def keptRays : Array (Array Fragment) :=
  ((List.range raysPerTile).map fun n =>
    (parityFilter (metBy solids g start bin n)).toArray).toArray

/-- A tile can be sampled if all that its rays meet is finite, and what they keep makes up no
more levels than a tile may have. -/
structure CanBeSampled : Prop where
  isFinite : ∀ n < raysPerTile, (metBy solids g start bin n).all Fragment.isFinite = true
  few : layersOf (keptRays solids g start bin) ≤ levelLimit

variable {solids g start bin}

/-- A tile whose rays meet finite surfaces only is sampled, and keeps of each ray what
alternates. -/
theorem castAll_of_isFinite
    (h : ∀ n < raysPerTile, (metBy solids g start bin n).all Fragment.isFinite = true) :
    castAll solids g start bin = some (keptRays solids g start bin).toList := by
  rw [castAll, mapM_eq_some_iff, keptRays, List.map_map]
  exact List.map_congr_left fun n hn => if_pos (h n (List.mem_range.mp hn))

/-- A tile that is sampled met finite surfaces only. -/
theorem isFinite_of_castAll {rays : List (Array Fragment)}
    (h : castAll solids g start bin = some rays) :
    ∀ n < raysPerTile, (metBy solids g start bin n).all Fragment.isFinite = true := by
  intro n hn
  rw [castAll, mapM_eq_some_iff] at h
  have hmem : _ ∈ rays.map some := h ▸ List.mem_map.mpr ⟨n, List.mem_range.mpr hn, rfl⟩
  obtain ⟨ray, -, hray⟩ := List.mem_map.mp hmem
  exact (Option.ite_none_right_eq_some.mp hray.symm).1

/-- A tile that can be sampled has what its rays keep. -/
theorem of_eq (h : CanBeSampled solids g start bin) : SampledTile.of solids g start bin
    = ⟨bin, keptRays solids g start bin, layersOf (keptRays solids g start bin)⟩ := by
  rw [SampledTile.of, castAll_of_isFinite h.isFinite]
  exact if_neg (Nat.not_lt.mpr h.few)

/-- The rays of a tile that have some stacks. -/
def raysOf (stack : Nat → List Fragment) : Array (Array Fragment) :=
  ((List.range raysPerTile).map fun n => (stack n).toArray).toArray

/-- A tile whose rays meet stacks that need no filtering has these stacks. -/
theorem of_eq_raysOf {stack : Nat → List Fragment}
    (hmet : ∀ n < raysPerTile, metBy solids g start bin n = stack n)
    (hfinite : ∀ n < raysPerTile, (stack n).all Fragment.isFinite = true)
    (hkept : ∀ n < raysPerTile, parityFilter (stack n) = stack n)
    (hfew : layersOf (raysOf stack) ≤ levelLimit) : SampledTile.of solids g start bin
      = ⟨bin, raysOf stack, layersOf (raysOf stack)⟩ := by
  have hrays : keptRays solids g start bin = raysOf stack := by
    refine congrArg List.toArray (List.map_congr_left fun n hn => ?_)
    rw [hmet n (List.mem_range.mp hn), hkept n (List.mem_range.mp hn)]
  rw [of_eq ⟨fun n hn => by rw [hmet n hn, hfinite n hn], hrays.symm ▸ hfew⟩, hrays]

/-- A tile that cannot be sampled has no rays. -/
theorem of_eq_unsampled (h : ¬ CanBeSampled solids g start bin) :
    SampledTile.of solids g start bin = unsampled bin := by
  unfold SampledTile.of
  split
  case h_1 => rfl
  case h_2 rays hrays =>
    have hfinite := isFinite_of_castAll hrays
    rw [castAll_of_isFinite hfinite] at hrays
    cases hrays
    exact if_pos (Nat.not_le.mp fun hfew => h ⟨hfinite, hfew⟩)

/-- The fragments of a ray are in turn. -/
theorem inTurn_of_mem_rays {ray : Array Fragment}
    (h : ray ∈ (SampledTile.of solids g start bin).rays) : Fragment.InTurn ray.toList := by
  obtain ⟨n, -, hray⟩ := exists_cast_of_mem_rays h
  rw [hray, List.toList_toArray, parityFilter, Fragment.inTurn_iff]
  exact Fragment.alternates_alternating false _

/-- The levels of a tile are the least number that covers all its rays, also where it cannot
be sampled. -/
theorem isLeast_layerCount (solids : Array Solid) (g : Grid) (start : Single) (bin : TileBin) :
    IsLeast {n | ∀ ray ∈ (SampledTile.of solids g start bin).rays, ray.size ≤ 2 * n}
      (SampledTile.of solids g start bin).layerCount := by
  by_cases h : CanBeSampled solids g start bin
  · rw [of_eq h]
    dsimp only
    exact isLeast_layersOf (keptRays solids g start bin)
  · rw [of_eq_unsampled h]
    exact ⟨by simp [unsampled], fun n _ => Nat.zero_le n⟩

/-- What is kept of a ray is the longest part of its fragments that is in turn, and a second
pass keeps all of it. So each ray of a sampled tile has entries at the places of floors and
exits at those of ceilings, and the levels are the least number that covers every ray. -/
theorem rays_in_turn :
    (∀ fragments : List Fragment, let kept := parityFilter fragments
      kept.Sublist fragments ∧ Fragment.InTurn kept ∧
      (∀ other : List Fragment, other.Sublist fragments → Fragment.InTurn other →
        other.length ≤ kept.length) ∧
      parityFilter kept = kept) ∧
    ∀ (solids : Array Solid) (g : Grid) (start : Single) (bin : TileBin),
      let t := SampledTile.of solids g start bin
      (CanBeSampled solids g start bin → t.rays = keptRays solids g start bin) ∧
      (¬ CanBeSampled solids g start bin → t.rays = #[]) ∧
      (∀ ray ∈ t.rays, ∀ l : Nat,
        (∀ f, ray[2 * l]? = some f → f.isEntry = true) ∧
        (∀ f, ray[2 * l + 1]? = some f → f.isEntry = false)) ∧
      IsLeast {n | ∀ ray ∈ t.rays, ray.size ≤ 2 * n} t.layerCount := by
  constructor
  · intro fragments
    have hturn := Fragment.alternates_alternating false fragments
    refine ⟨Fragment.alternating_sublist false fragments, Fragment.inTurn_iff.mpr hturn, ?_,
      Fragment.alternating_of_alternates hturn⟩
    intro other hpart hother
    exact Fragment.length_le_alternating hpart (Fragment.inTurn_iff.mp hother)
  · intro solids g start bin
    refine ⟨fun h => by rw [of_eq h], fun h => by rw [of_eq_unsampled h]; rfl, ?_,
      isLeast_layerCount ..⟩
    intro ray hray l
    have hturn := inTurn_of_mem_rays hray
    refine ⟨fun f hf => ?_, fun f hf => ?_⟩
    · exact (hturn _ f (by rwa [Array.getElem?_toList])).mpr (Nat.mul_mod_right 2 l)
    · -- An entry stands at an even place, and this one is odd.
      refine Bool.eq_false_iff.mpr fun hentry => ?_
      have heven := (hturn _ f (by rwa [Array.getElem?_toList])).mp hentry
      omega

end SampledTile

end Battlemap
