import Battlemap.Proofs.Build.Alternation
import Battlemap.Proofs.Build.Registration

/-!
# `Battlemap.Proofs.Build.Tower`: stacked boxes stay separate levels

Boxes over a ray stand clear of one another if of any two one ends where the other begins, or
below (`Stacked`). From the bottom up they are a tower (`Stacked.exists_tower`), and the levels
of the ray should be the boxes of the tower.

Where two boxes touch, their fragments have one height. The exit goes before the entry then, so
the fragments of a tower are sorted as they stand (`IsTower.mergeSort_of_seamless`), whatever
the order in which the boxes are registered. They are in turn, so nothing of them is dropped.

Fragments are sorted by an order in which `-0` comes before `0`, and boxes touch in an order in
which both are one number. So there is one seam at which the rule fails: a box that ends at `0`
under a box that begins at `-0`. There the upper box is entered before the lower one is left
(`IsTower.mergeSort_of_seam`), and both fragments of the upper box are dropped
(`parityFilter_seamOf`).

`stacked_boxes_kept` has both cases. Level `l` is the box with `l` boxes below it, unless a
tower has such a seam, and then it is so for the tower without the box above the seam.
`pile_loses_box` is a pile of two boxes that becomes one level.
-/

set_option autoImplicit false

namespace Battlemap

/-! ### Strictly sorted fragments -/

namespace Fragment

/-- Sorting puts the first fragment in front, in whatever order the two come. -/
def StrictlyPrecedes (f g : Fragment) : Prop := g.precedes f = false

/-- A fragment must stand before a higher one, and before an entry of its own height if it is an
exit. -/
theorem strictlyPrecedes_iff {f g : Fragment} : f.StrictlyPrecedes g ↔
    f.height.totalKey < g.height.totalKey ∨
      f.height.totalKey = g.height.totalKey ∧ f.isEntry = false ∧ g.isEntry = true := by
  rw [StrictlyPrecedes, Bool.eq_false_iff, ne_eq, precedes_iff]
  cases f.isEntry <;> cases g.isEntry <;> simp <;> omega

/-- A lower fragment must stand before a higher one. -/
theorem strictlyPrecedes_of_lt {f g : Fragment} (h : f.height < g.height) :
    f.StrictlyPrecedes g :=
  strictlyPrecedes_iff.mpr (.inl (Single.totalKey_lt_of_lt h))

/-- Two fragments have one order only. -/
def Apart (f g : Fragment) : Prop := f.StrictlyPrecedes g ∨ g.StrictlyPrecedes f

instance : Std.Symm Apart := ⟨fun _ _ h => h.symm⟩

/-- Of two fragments that are apart only one may stand before the other. -/
theorem Apart.not_both {f g : Fragment} (h : f.Apart g) (hfg : f.precedes g = true) :
    g.precedes f = false := by
  rcases h with h | h
  · exact h
  · rw [StrictlyPrecedes, hfg] at h
    cases h

/-- Fragments that can be sorted strictly are sorted in one way only. -/
theorem mergeSort_eq {met sorted : List Fragment} (hperm : met.Perm sorted)
    (hsorted : sorted.Pairwise StrictlyPrecedes) : met.mergeSort precedes = sorted := by
  have hapart : sorted.Pairwise Apart := hsorted.imp .inl
  refine List.Perm.eq_of_pairwise ?_ (List.pairwise_mergeSort precedes_trans precedes_total _)
    (hsorted.imp ?_) ((List.mergeSort_perm _ _).trans hperm)
  · intro f g hf hg hfg hgf
    rw [List.mem_mergeSort, hperm.mem_iff] at hf
    by_contra hne
    rw [(hapart.forall hf hg hne).not_both hfg] at hgf
    cases hgf
  · intro f g h
    simpa [show g.precedes f = false from h] using precedes_total f g

end Fragment

/-! ### Boxes over a ray -/

/-- The ray goes through the ground plan of a box. -/
def VerticalRay.isOver (ray : VerticalRay) (target : Nat × Box) : Bool :=
  target.2.containsXZ ray.x ray.z

/-- The boxes of a bin that have the ray over their ground plans. -/
def Targets.over (targets : Targets) (ray : VerticalRay) : List (Nat × Box) :=
  targets.boxes.filter ray.isOver

/-- The fragment where a ray enters a box. -/
def entryOf (start : Single) (target : Nat × Box) : Fragment :=
  ⟨.down, target.2.min.y.max start, target.1⟩

/-- The fragment where a ray leaves a box. -/
def exitOf (target : Nat × Box) : Fragment := ⟨.up, target.2.max.y, target.1⟩

/-- Where a ray enters a box, the surface faces down. -/
@[simp] theorem isEntry_entryOf (start : Single) (target : Nat × Box) :
    (entryOf start target).isEntry = true :=
  (by decide : decide (Vec3.down.y < .zero) = true)

/-- Where it leaves the box, the surface faces up. -/
@[simp] theorem isEntry_exitOf (target : Nat × Box) : (exitOf target).isEntry = false :=
  (by decide : decide (Vec3.up.y < .zero) = false)

/-- Both fragments of a ray at a box. -/
def sidesOf (start : Single) (target : Nat × Box) : List Fragment :=
  [entryOf start target, exitOf target]

/-- The first box ends where the second one begins, or below. -/
def EndsBelow (a b : Nat × Box) : Prop := a.2.max.y ≤ b.2.min.y

instance (a b : Nat × Box) : Decidable (EndsBelow a b) :=
  inferInstanceAs (Decidable (a.2.max.y ≤ b.2.min.y))

/-- A box has finite heights and some thickness, and begins no lower than a ray starts. -/
structure Stands (start : Single) (target : Nat × Box) : Prop where
  finite_min : target.2.min.y.isFinite = true
  finite_max : target.2.max.y.isFinite = true
  thick : target.2.min.y < target.2.max.y
  above : start ≤ target.2.min.y

/-- Boxes stand clear of one another: of any two, one ends below the other. -/
structure Stacked (start : Single) (boxes : List (Nat × Box)) : Prop where
  stands : ∀ target ∈ boxes, Stands start target
  apart : boxes.Pairwise fun a b => EndsBelow a b ∨ EndsBelow b a

/-- Boxes stand on or over one another, from the bottom up. -/
structure IsTower (start : Single) (tower : List (Nat × Box)) : Prop where
  stands : ∀ target ∈ tower, Stands start target
  ascending : tower.Pairwise EndsBelow

namespace Stands

variable {start : Single} {a b : Nat × Box}

/-- The floor of a box is its lower side, up to the sign of a zero. -/
theorem height_entryOf (h : Stands start a) :
    (entryOf start a).height.sameNumber a.2.min.y = true ∧
      (start < a.2.min.y → (entryOf start a).height = a.2.min.y) := by
  obtain ⟨hstart, hmin, hle⟩ := h.above
  have hmax : (entryOf start a).height = if start < a.2.min.y then a.2.min.y else start := by
    rw [entryOf, Single.max, hstart]
    rfl
  constructor
  · rw [hmax]
    split
    case isTrue => simp [Single.sameNumber, hmin]
    case isFalse hnot =>
      have heq : start.rank = a.2.min.y.rank :=
        le_antisymm hle (not_lt.mp fun hlt => hnot ⟨hstart, hmin, hlt⟩)
      simp [Single.sameNumber, hmin, hstart, heq]
  · intro hlt
    rw [hmax, if_pos hlt]

/-- A box over the start of a ray is entered at its lower side, whichever zero that is. -/
theorem rank_entryOf (h : Stands start a) : (entryOf start a).height.rank = a.2.min.y.rank ∧
    (entryOf start a).height.isNaN = false := by
  have hsame := h.height_entryOf.1
  simp only [Single.sameNumber, Bool.and_eq_true, Bool.not_eq_true', beq_iff_eq] at hsame
  exact ⟨hsame.2, hsame.1.1⟩

/-- A box is entered below its upper side. -/
theorem entryOf_lt (h : Stands start a) {c : Single} (hc : a.2.min.y < c) :
    (entryOf start a).height < c := by
  obtain ⟨hrank, hnumber⟩ := h.rank_entryOf
  exact ⟨hnumber, hc.2.1, hrank ▸ hc.2.2⟩

/-- A ray starts below the second of two boxes, so it enters it at its lower side. -/
theorem height_entryOf_of_endsBelow (ha : Stands start a) (hb : Stands start b)
    (hab : EndsBelow a b) : (entryOf start b).height = b.2.min.y :=
  hb.height_entryOf.2 (Single.lt_of_lt_of_le (Single.lt_of_le_of_lt ha.above ha.thick) hab)

/-- No box ends below itself, since each has some thickness. -/
theorem not_endsBelow_self (h : Stands start a) : ¬ EndsBelow a a := fun hself =>
  Single.lt_irrefl _ (Single.lt_of_lt_of_le h.thick hself)

/-- Of two boxes only one ends below the other. -/
theorem not_endsBelow (ha : Stands start a) (hb : Stands start b) (hab : EndsBelow a b) :
    ¬ EndsBelow b a := fun hba =>
  Single.lt_irrefl _ (Single.lt_of_lt_of_le (Single.lt_of_lt_of_le
    (Single.lt_of_lt_of_le ha.thick hab) (Single.le_of_lt hb.thick)) hba)

end Stands

/-- The upper side of a box is at `0`, and the lower side of another one at `-0`. -/
def MeetAtZeros (a b : Nat × Box) : Prop := a.2.max.y = .zero ∧ b.2.min.y = -.zero

instance (a b : Nat × Box) : Decidable (MeetAtZeros a b) :=
  inferInstanceAs (Decidable (_ ∧ _))

/-- No two of the boxes meet at zeros of two signs. -/
def Seamless (boxes : List (Nat × Box)) : Prop :=
  ∀ a ∈ boxes, ∀ b ∈ boxes, ¬ MeetAtZeros a b

section

variable {start : Single} {a b : Nat × Box} {boxes tower : List (Nat × Box)}

/-! ### Towers -/

/-- Whether boxes stand clear of one another does not depend on their order. -/
theorem Stacked.perm (h : Stacked start boxes) {other : List (Nat × Box)}
    (hperm : other.Perm boxes) : Stacked start other where
  stands target htarget := h.stands target (hperm.mem_iff.mp htarget)
  apart := (hperm.pairwise_iff fun hor => hor.symm).mpr h.apart

/-- Boxes that stand clear of one another make up a tower, in some order. -/
theorem Stacked.exists_tower (h : Stacked start boxes) :
    ∃ tower, tower.Perm boxes ∧ IsTower start tower := by
  let lower (a b : Nat × Box) : Bool := decide (a.2.min.y.rank ≤ b.2.min.y.rank)
  have hperm := List.mergeSort_perm boxes lower
  have hlower : (boxes.mergeSort lower).Pairwise fun a b => lower a b = true :=
    List.pairwise_mergeSort (by simp only [lower, decide_eq_true_eq]; omega)
      (by simp only [lower, Bool.or_eq_true, decide_eq_true_eq]; omega) boxes
  have hsorted := h.perm hperm
  refine ⟨_, hperm, hsorted.stands, ?_⟩
  refine (hsorted.apart.and hlower).imp_of_mem ?_
  rintro a b ha hb ⟨hab | hba, hle⟩
  · exact hab
  · -- The second box cannot end below the first one, which begins no higher.
    have hlt := Single.lt_of_lt_of_le (hsorted.stands b hb).thick hba
    exact absurd (of_decide_eq_true hle) (not_le.mpr hlt.2.2)

/-- The fragments of two boxes are in order, unless the boxes meet at zeros of two signs. -/
theorem strictlyPrecedes_sidesOf (ha : Stands start a) (hb : Stands start b)
    (hab : EndsBelow a b) (hzeros : ¬ MeetAtZeros a b) :
    ∀ f ∈ sidesOf start a, ∀ g ∈ sidesOf start b, f.StrictlyPrecedes g := by
  have hentry := ha.height_entryOf_of_endsBelow hb hab
  have hthick := Single.lt_of_lt_of_le ha.thick hab
  intro f hf g hg
  rcases List.mem_pair.mp hf with rfl | rfl <;> rcases List.mem_pair.mp hg with rfl | rfl
  · exact Fragment.strictlyPrecedes_of_lt (hentry ▸ ha.entryOf_lt hthick)
  · exact Fragment.strictlyPrecedes_of_lt (ha.entryOf_lt (Single.lt_of_lt_of_le hthick
      (Single.le_of_lt hb.thick)))
  · -- Both sides may be at one height, where the exit comes first.
    have hkey : (exitOf a).height.totalKey ≤ (entryOf start b).height.totalKey := by
      rw [hentry]
      exact Single.totalKey_le_of_le hab hzeros
    rw [Fragment.strictlyPrecedes_iff]
    rcases hkey.lt_or_eq with hlt | heq
    · exact .inl hlt
    · exact .inr ⟨heq, isEntry_exitOf a, isEntry_entryOf start b⟩
  · exact Fragment.strictlyPrecedes_of_lt (Single.lt_of_le_of_lt hab hb.thick)

/-- A ray enters a box before it leaves it. -/
theorem strictlyPrecedes_side (h : Stands start a) :
    (sidesOf start a).Pairwise Fragment.StrictlyPrecedes :=
  List.pairwise_pair.mpr (Fragment.strictlyPrecedes_of_lt (h.entryOf_lt h.thick))

/-- The fragments of a tower without a seam of zeros are sorted as they stand. -/
theorem IsTower.pairwise_sidesOf (h : IsTower start tower) (hseamless : Seamless tower) :
    (tower.flatMap (sidesOf start)).Pairwise Fragment.StrictlyPrecedes := by
  refine List.pairwise_flatMap.mpr ⟨fun a ha => strictlyPrecedes_side (h.stands a ha), ?_⟩
  exact h.ascending.imp_of_mem fun {a b} ha hb hab =>
    strictlyPrecedes_sidesOf (h.stands a ha) (h.stands b hb) hab (hseamless a ha b hb)

/-- A ray that is over a box meets both of its sides. -/
theorem boxFragments_eq {ray : VerticalRay} (h : Stands ray.start a)
    (hover : ray.isOver a = true) : boxFragments ray a.1 a.2 = sidesOf ray.start a := by
  have hhigh := Single.lt_of_le_of_lt h.above h.thick
  have hnot : ¬ a.2.max.y < ray.start := fun hlow =>
    Single.lt_irrefl _ (Single.lt_of_le_of_lt (Single.le_of_lt hhigh) hlow)
  rw [boxFragments, if_neg fun hflat => Single.lt_irrefl _ (Single.lt_of_lt_of_le h.thick hflat),
    VerticalRay.meetBox, show a.2.containsXZ ray.x ray.z = true from hover, decide_eq_false hnot]
  rfl

/-- A ray beside a box does not meet it. -/
theorem boxFragments_eq_nil {ray : VerticalRay} (hover : ¬ ray.isOver a = true) :
    boxFragments ray a.1 a.2 = [] := by
  rw [boxFragments, VerticalRay.meetBox,
    show a.2.containsXZ ray.x ray.z = false from Bool.eq_false_iff.mpr hover]
  split <;> rfl

/-- A ray meets both sides of each box that it is over, and nothing else. -/
theorem flatMap_boxFragments {ray : VerticalRay} (boxes : List (Nat × Box))
    (h : ∀ target ∈ boxes.filter ray.isOver, Stands ray.start target) :
    (boxes.flatMap fun target => boxFragments ray target.1 target.2)
      = (boxes.filter ray.isOver).flatMap (sidesOf ray.start) := by
  induction boxes with
  | nil => rfl
  | cons a boxes ih =>
    rw [List.flatMap_cons]
    by_cases hover : ray.isOver a = true
    · rw [List.filter_cons_of_pos hover] at h ⊢
      rw [boxFragments_eq (h a List.mem_cons_self) hover, List.flatMap_cons,
        ih fun t ht => h t (List.mem_cons_of_mem a ht)]
    · rw [List.filter_cons_of_neg hover] at h ⊢
      rw [boxFragments_eq_nil hover, List.nil_append, ih h]

/-- A ray that meets no polygon meets both sides of each box over it. -/
theorem castRay_eq {targets : Targets} {ray : VerticalRay}
    (hpolygons : ∀ target ∈ targets.polygons, polygonFragment? ray target.1 target.2 = none)
    (h : ∀ target ∈ targets.over ray, Stands ray.start target) :
    castRay targets ray
      = ((targets.over ray).flatMap (sidesOf ray.start)).mergeSort Fragment.precedes := by
  have hmissed : (targets.polygons.filterMap fun target =>
      polygonFragment? ray target.1 target.2) = [] :=
    List.filterMap_eq_nil_iff.mpr hpolygons
  simp only [castRay, hmissed, List.append_nil, flatMap_boxFragments _ h, Targets.over]

/-! ### What a ray keeps of a tower -/

/-- Both fragments of each box are in turn, and so the next one has to be an entry again. -/
theorem alternating_sidesOf_append (start : Single) (tower : List (Nat × Box))
    (rest : List Fragment) : alternating false (tower.flatMap (sidesOf start) ++ rest)
      = tower.flatMap (sidesOf start) ++ alternating false rest := by
  induction tower with
  | nil => rfl
  | cons a tower ih =>
    rw [List.flatMap_cons, List.append_assoc, List.append_assoc, ← ih]
    exact (Fragment.alternating_cons_of_turn (isEntry_entryOf start a) _).trans
      (congrArg _ (Fragment.alternating_cons_of_turn (isEntry_exitOf a) _))

/-- The fragments of a tower alternate, so all of them are kept. -/
theorem parityFilter_sidesOf (start : Single) (tower : List (Nat × Box)) :
    parityFilter (tower.flatMap (sidesOf start)) = tower.flatMap (sidesOf start) := by
  have h := alternating_sidesOf_append start tower []
  rwa [List.append_nil, alternating, List.append_nil] at h

/-- Two boxes that meet at zeros of two signs are neighbours in a tower. -/
theorem IsTower.exists_seam (h : IsTower start tower) (ha : a ∈ tower) (hb : b ∈ tower)
    (hzeros : MeetAtZeros a b) : ∃ low high, tower = low ++ a :: b :: high := by
  have hthick {c} (hc : c ∈ tower) : c.2.min.y.rank < c.2.max.y.rank := (h.stands c hc).thick.2.2
  have hend : a.2.max.y.rank = 0 := by rw [hzeros.1]; rfl
  have hbegin : b.2.min.y.rank = 0 := by rw [hzeros.2]; rfl
  obtain ⟨low, rest, rfl⟩ := List.append_of_mem ha
  obtain ⟨-, hrest, hacross⟩ := List.pairwise_append.mp h.ascending
  rw [List.pairwise_cons] at hrest
  have hthick_a := hthick ha
  have hthick_b := hthick hb
  rcases List.mem_append.mp hb with hlow | hb
  · have hba := (hacross b hlow a List.mem_cons_self).2.2
    omega
  rcases List.mem_cons.mp hb with rfl | hb
  · omega
  obtain ⟨middle, high, rfl⟩ := List.append_of_mem hb
  -- No box of some thickness has room between the two.
  cases middle with
  | nil => exact ⟨low, high, rfl⟩
  | cons c middle =>
    have hthick_c := hthick (c := c) (by simp)
    have hac := (hrest.1 c (by simp)).2.2
    have hcb := ((List.pairwise_cons.mp hrest.2).1 b (by simp)).2.2
    omega

/-- The fragments of a tower without a seam of zeros are met as they stand. -/
theorem IsTower.mergeSort_of_seamless (h : IsTower start tower) (hseamless : Seamless tower)
    {met : List Fragment} (hmet : met.Perm (tower.flatMap (sidesOf start))) :
    met.mergeSort Fragment.precedes = tower.flatMap (sidesOf start) :=
  Fragment.mergeSort_eq hmet (h.pairwise_sidesOf hseamless)

/-- The fragments of two boxes that meet at zeros of two signs, as sorting has them. -/
def seamOf (start : Single) (a b : Nat × Box) : List Fragment :=
  [entryOf start a, entryOf start b, exitOf a, exitOf b]

/-- In a seam of zeros the fragments are those of its two boxes, in another order. -/
theorem perm_seamOf (start : Single) (a b : Nat × Box) :
    (seamOf start a b).Perm (sidesOf start a ++ sidesOf start b) :=
  (List.Perm.swap _ _ _).cons _

/-- The upper one of two boxes that meet at zeros of two signs is entered before the lower one
is left. -/
theorem pairwise_seamOf (ha : Stands start a) (hb : Stands start b) (hab : EndsBelow a b)
    (hzeros : MeetAtZeros a b) : (seamOf start a b).Pairwise Fragment.StrictlyPrecedes := by
  have hentry := ha.height_entryOf_of_endsBelow hb hab
  have hthick := Single.lt_of_lt_of_le ha.thick hab
  have hthick' := Single.lt_of_lt_of_le hthick (Single.le_of_lt hb.thick)
  have hcross : (entryOf start b).StrictlyPrecedes (exitOf a) := by
    refine Fragment.strictlyPrecedes_iff.mpr (.inl ?_)
    rw [hentry, hzeros.2, show (exitOf a).height = .zero from hzeros.1]
    decide
  simp only [seamOf, List.pairwise_cons, List.forall_mem_cons]
  refine ⟨⟨?_, ?_, ?_, by simp⟩, ⟨hcross, ?_, by simp⟩, ⟨?_, by simp⟩, by simp, List.Pairwise.nil⟩
  · exact Fragment.strictlyPrecedes_of_lt (hentry ▸ ha.entryOf_lt hthick)
  · exact Fragment.strictlyPrecedes_of_lt (ha.entryOf_lt ha.thick)
  · exact Fragment.strictlyPrecedes_of_lt (ha.entryOf_lt hthick')
  · exact Fragment.strictlyPrecedes_of_lt (hb.entryOf_lt hb.thick)
  · exact Fragment.strictlyPrecedes_of_lt (Single.lt_of_le_of_lt hab hb.thick)

/-- What is below a seam of zeros is negative, and what is above it is positive. -/
theorem IsTower.ranks_of_seam {low high : List (Nat × Box)}
    (h : IsTower start (low ++ a :: b :: high)) (hzeros : MeetAtZeros a b) :
    (∀ c ∈ low, c.2.max.y.rank < 0) ∧ a.2.min.y.rank < 0 ∧ ∀ c ∈ high, 0 < c.2.min.y.rank := by
  obtain ⟨-, hrest, hacross⟩ := List.pairwise_append.mp h.ascending
  rw [List.pairwise_cons, List.pairwise_cons] at hrest
  have hend : a.2.max.y.rank = 0 := by rw [hzeros.1]; rfl
  have hbegin : b.2.min.y.rank = 0 := by rw [hzeros.2]; rfl
  have ha := (h.stands a (by simp)).thick.2.2
  have hb := (h.stands b (by simp)).thick.2.2
  refine ⟨fun c hc => ?_, by omega, fun c hc => ?_⟩
  · have hle := (hacross c hc a (by simp)).2.2
    omega
  · have hle := (hrest.2.1 c hc).2.2
    omega

/-- Sorting a tower changes the order of its fragments at the seam only. -/
theorem IsTower.mergeSort_of_seam {low high : List (Nat × Box)}
    (h : IsTower start (low ++ a :: b :: high)) (hzeros : MeetAtZeros a b) {met : List Fragment}
    (hmet : met.Perm ((low ++ a :: b :: high).flatMap (sidesOf start))) :
    met.mergeSort Fragment.precedes = low.flatMap (sidesOf start) ++
      (seamOf start a b ++ high.flatMap (sidesOf start)) := by
  obtain ⟨hlow, hrest, hacross⟩ := List.pairwise_append.mp h.ascending
  obtain ⟨hfirst, hsecond, hhigh⟩ : (∀ c ∈ b :: high, EndsBelow a c) ∧
      (∀ c ∈ high, EndsBelow b c) ∧ high.Pairwise EndsBelow := by
    rwa [List.pairwise_cons, List.pairwise_cons] at hrest
  have hstands {c} (hc : c ∈ low ∨ c ∈ a :: b :: high) : Stands start c :=
    h.stands c (List.mem_append.mpr hc)
  have ha := hstands (c := a) (by simp)
  have hb := hstands (c := b) (by simp)
  obtain ⟨hbelow, -, habove⟩ := h.ranks_of_seam hzeros
  -- No other two boxes meet at zeros.
  have hnegative {c d} (hc : c ∈ low) : ¬ MeetAtZeros c d := fun hz => by
    have hlt := hbelow c hc
    rw [hz.1] at hlt
    exact absurd hlt (by decide)
  have hpositive {c d} (hd : d ∈ high) : ¬ MeetAtZeros c d := fun hz => by
    have hlt := habove d hd
    rw [hz.2] at hlt
    exact absurd hlt (by decide)
  have hpart {part : List (Nat × Box)} (hmem : ∀ c ∈ part, c ∈ low ∨ c ∈ a :: b :: high)
      (hascending : part.Pairwise EndsBelow)
      (hclear : ∀ c ∈ part, ∀ d ∈ part, ¬ MeetAtZeros c d) :
      (part.flatMap (sidesOf start)).Pairwise Fragment.StrictlyPrecedes :=
    IsTower.pairwise_sidesOf ⟨fun c hc => hstands (hmem c hc), hascending⟩ hclear
  have hswap : (seamOf start a b ++ high.flatMap (sidesOf start)).Perm
      ((a :: b :: high).flatMap (sidesOf start)) := by
    rw [List.flatMap_cons, List.flatMap_cons, ← List.append_assoc]
    exact (perm_seamOf start a b).append_right _
  refine Fragment.mergeSort_eq (hmet.trans ?_) ?_
  · rw [List.flatMap_append]
    exact hswap.symm.append_left _
  · refine List.pairwise_append.mpr ⟨?_, List.pairwise_append.mpr ⟨?_, ?_, ?_⟩, ?_⟩
    · exact hpart (fun c hc => .inl hc) hlow fun c hc d _ => hnegative hc
    · exact pairwise_seamOf ha hb (hfirst b (by simp)) hzeros
    · exact hpart (fun c hc => .inr (by simp [hc])) hhigh fun c _ d hd => hpositive hd
    · intro f hf g hg
      obtain ⟨d, hd, hg⟩ := List.mem_flatMap.mp hg
      rcases List.mem_append.mp ((perm_seamOf start a b).mem_iff.mp hf) with hf | hf
      · exact strictlyPrecedes_sidesOf ha (hstands (.inr (by simp [hd])))
          (hfirst d (by simp [hd])) (hpositive hd) f hf g hg
      · exact strictlyPrecedes_sidesOf hb (hstands (.inr (by simp [hd]))) (hsecond d hd)
          (hpositive hd) f hf g hg
    · intro f hf g hg
      obtain ⟨c, hc, hf⟩ := List.mem_flatMap.mp hf
      obtain ⟨d, hd, hg⟩ := List.mem_flatMap.mp (hswap.mem_iff.mp hg)
      exact strictlyPrecedes_sidesOf (hstands (.inl hc)) (hstands (.inr hd)) (hacross c hc d hd)
        (hnegative hc) f hf g hg

/-- Of two boxes that meet at zeros of two signs the upper one is lost, as if it began inside
the lower one. -/
theorem alternating_seamOf_append (start : Single) (a b : Nat × Box) (rest : List Fragment) :
    alternating false (seamOf start a b ++ rest)
      = sidesOf start a ++ alternating false rest := by
  have hentry := isEntry_entryOf start
  change alternating false (entryOf start a :: entryOf start b :: exitOf a :: exitOf b :: rest)
    = entryOf start a :: exitOf a :: alternating false rest
  rw [Fragment.alternating_cons_of_turn (hentry a), Bool.not_false,
    Fragment.alternating_cons_of_not_turn (hentry b),
    Fragment.alternating_cons_of_turn (isEntry_exitOf a), Bool.not_true,
    Fragment.alternating_cons_of_not_turn (isEntry_exitOf b)]

/-- In a seam of zeros the entry of the upper box comes first, so both fragments of the upper
box are dropped. -/
theorem parityFilter_seamOf (start : Single) (low high : List (Nat × Box)) (a b : Nat × Box) :
    parityFilter (low.flatMap (sidesOf start) ++
        (seamOf start a b ++ high.flatMap (sidesOf start)))
      = (low ++ a :: high).flatMap (sidesOf start) := by
  have hhigh : alternating false (high.flatMap (sidesOf start)) = high.flatMap (sidesOf start) :=
    parityFilter_sidesOf start high
  rw [parityFilter, alternating_sidesOf_append, alternating_seamOf_append, hhigh,
    List.flatMap_append, List.flatMap_cons]

/-! ### Levels of a tower -/

/-- How many of the boxes end below a box. -/
def heightRank (boxes : List (Nat × Box)) (b : Nat × Box) : Nat :=
  boxes.countP fun a => decide (EndsBelow a b)

/-- The fragments are those of the boxes, level by level: the box with `l` boxes below it makes
up level `l`. -/
structure Shows (start : Single) (boxes : List (Nat × Box)) (kept : List Fragment) : Prop where
  length : kept.length = 2 * boxes.length
  ranked : ∀ l < boxes.length, ∃ b ∈ boxes, heightRank boxes b = l
  /-- The floor is the lower side of the box, which can only differ from it in the sign of a
  zero. -/
  floor : ∀ b ∈ boxes, ∃ height, kept[2 * heightRank boxes b]? = some ⟨.down, height, b.1⟩ ∧
    height.sameNumber b.2.min.y = true ∧ (start < b.2.min.y → height = b.2.min.y)
  ceiling : ∀ b ∈ boxes,
    kept[2 * heightRank boxes b + 1]? = some ⟨.up, b.2.max.y, b.1⟩

/-- The order in which the boxes are listed does not matter. -/
theorem Shows.perm {kept : List Fragment} (h : Shows start tower kept)
    (hperm : tower.Perm boxes) : Shows start boxes kept := by
  have hrank (b : Nat × Box) : heightRank tower b = heightRank boxes b := hperm.countP_eq _
  constructor
  · rw [← hperm.length_eq, h.length]
  · intro l hl
    obtain ⟨b, hb, hplace⟩ := h.ranked l (hperm.length_eq ▸ hl)
    exact ⟨b, hperm.mem_iff.mp hb, hrank b ▸ hplace⟩
  · intro b hb
    rw [← hrank b]
    exact h.floor b (hperm.mem_iff.mpr hb)
  · intro b hb
    rw [← hrank b]
    exact h.ceiling b (hperm.mem_iff.mpr hb)

/-- Level by level, a tower has the entry and the exit of its boxes. -/
theorem getElem?_sidesOf (start : Single) (tower : List (Nat × Box)) (l : Nat) :
    (tower.flatMap (sidesOf start))[2 * l]? = tower[l]?.map (entryOf start) ∧
      (tower.flatMap (sidesOf start))[2 * l + 1]? = tower[l]?.map exitOf := by
  induction tower generalizing l with
  | nil => exact ⟨rfl, rfl⟩
  | cons a tower ih =>
    cases l with
    | zero => exact ⟨rfl, rfl⟩
    | succ l => exact ih l

/-- A tower has two fragments per box. -/
theorem length_flatMap_sidesOf (start : Single) (tower : List (Nat × Box)) :
    (tower.flatMap (sidesOf start)).length = 2 * tower.length := by
  induction tower with
  | nil => rfl
  | cons a tower ih =>
    rw [List.flatMap_cons, List.length_append, ih, List.length_cons]
    exact (Nat.add_comm ..).trans (Nat.mul_succ ..).symm

/-- Below a box of a tower are the boxes in front of it. -/
theorem IsTower.heightRank_eq {low high : List (Nat × Box)}
    (h : IsTower start (low ++ b :: high)) : heightRank (low ++ b :: high) b = low.length := by
  have hstands := h.stands b (by simp)
  obtain ⟨-, hrest, hacross⟩ := List.pairwise_append.mp h.ascending
  have hlow : low.countP (fun a => decide (EndsBelow a b)) = low.length :=
    List.countP_eq_length.mpr fun a ha => decide_eq_true (hacross a ha b List.mem_cons_self)
  have hhigh : (b :: high).countP (fun a => decide (EndsBelow a b)) = 0 := by
    refine List.countP_eq_zero.mpr fun a ha => ?_
    rw [decide_eq_true_eq]
    rcases List.mem_cons.mp ha with rfl | ha
    · exact hstands.not_endsBelow_self
    · exact hstands.not_endsBelow (h.stands a (by simp [ha])) ((List.pairwise_cons.mp hrest).1 a ha)
  rw [heightRank, List.countP_append, hlow, hhigh, Nat.add_zero]

/-- A tower that is kept as it stands shows its boxes. -/
theorem IsTower.shows (h : IsTower start tower) :
    Shows start tower (tower.flatMap (sidesOf start)) := by
  -- The box with its place in the tower, and what the ray has there.
  have hplace {b : Nat × Box} (hb : b ∈ tower) :
      ∃ l, tower[l]? = some b ∧ heightRank tower b = l := by
    obtain ⟨low, high, rfl⟩ := List.append_of_mem hb
    exact ⟨low.length, by simp, h.heightRank_eq⟩
  refine ⟨length_flatMap_sidesOf start tower, ?_, ?_, ?_⟩
  · intro l hl
    obtain ⟨low, b, high, htower, rfl⟩ : ∃ low b high, tower = low ++ b :: high ∧ low.length = l :=
      ⟨tower.take l, tower[l], tower.drop (l + 1), by
        rw [← List.drop_eq_getElem_cons, List.take_append_drop], List.length_take_of_le hl.le⟩
    subst htower
    exact ⟨b, by simp, h.heightRank_eq⟩
  · intro b hb
    obtain ⟨l, hl, hrank⟩ := hplace hb
    rw [hrank, (getElem?_sidesOf start tower l).1, hl]
    exact ⟨_, rfl, (h.stands b hb).height_entryOf⟩
  · intro b hb
    obtain ⟨l, hl, hrank⟩ := hplace hb
    rw [hrank, (getElem?_sidesOf start tower l).2, hl]
    rfl

/-- The upper box at a seam of zeros is the only one that begins at `-0`. -/
theorem IsTower.filter_of_seam {low high : List (Nat × Box)}
    (h : IsTower start (low ++ a :: b :: high)) (hzeros : MeetAtZeros a b) :
    (low ++ a :: b :: high).filter (fun c => c.2.min.y != -.zero) = low ++ a :: high := by
  obtain ⟨hlow, ha, hhigh⟩ := h.ranks_of_seam hzeros
  have hne {c : Nat × Box} (hc : c.2.min.y.rank ≠ 0) : (c.2.min.y != -.zero) = true :=
    bne_iff_ne.mpr fun heq => hc (by rw [heq]; rfl)
  have hkept {part : List (Nat × Box)} (hpart : ∀ c ∈ part, c.2.min.y.rank ≠ 0) :
      part.filter (fun c => c.2.min.y != -.zero) = part :=
    List.filter_eq_self.mpr fun c hc => hne (hpart c hc)
  rw [List.filter_append, List.filter_cons, List.filter_cons, if_pos (hne ha.ne),
    if_neg (by simp [hzeros.2]), hkept fun c hc => (hhigh c hc).ne', hkept fun c hc => ?_]
  have hthick := (h.stands c (by simp [hc])).thick.2.2
  have hend := hlow c hc
  omega

end

/-- Boxes that stand clear of one another over a ray stay separate levels, unless two of them
meet at zeros of two signs. -/
theorem stacked_boxes_kept {solids : Array Solid} {bin : TileBin} {ray : VerticalRay}
    (hpolygons : ∀ target ∈ (bin.targets solids).polygons,
      polygonFragment? ray target.1 target.2 = none)
    (h : Stacked ray.start ((bin.targets solids).over ray)) :
    let boxes := (bin.targets solids).over ray
    let met := castRay (bin.targets solids) ray
    let kept := parityFilter met
    met.length = 2 * boxes.length ∧
      (Seamless boxes → kept = met ∧ Shows ray.start boxes kept) ∧
      (¬ Seamless boxes → kept.length + 2 = met.length ∧
        Shows ray.start (boxes.filter fun target => target.2.min.y != -.zero) kept) := by
  intro boxes met kept
  obtain ⟨tower, hperm, htower⟩ := h.exists_tower
  have hsides : (boxes.flatMap (sidesOf ray.start)).Perm (tower.flatMap (sidesOf ray.start)) :=
    hperm.symm.flatMap_right _
  have hmet : met = (boxes.flatMap (sidesOf ray.start)).mergeSort Fragment.precedes :=
    castRay_eq hpolygons h.stands
  have hlength : met.length = 2 * boxes.length := by
    rw [hmet, List.length_mergeSort, length_flatMap_sidesOf]
  refine ⟨hlength, fun hseamless => ?_, fun hseam => ?_⟩
  · -- Without a seam the sides of the tower are sorted as they stand, and alternate.
    have hall : Seamless tower := fun a ha b hb =>
      hseamless a (hperm.mem_iff.mp ha) b (hperm.mem_iff.mp hb)
    rw [htower.mergeSort_of_seamless hall hsides] at hmet
    have hkept : kept = met := by
      rw [show kept = parityFilter met from rfl, hmet, parityFilter_sidesOf]
    rw [hkept, hmet]
    exact ⟨rfl, htower.shows.perm hperm⟩
  · obtain ⟨a, ha, b, hb, hzeros⟩ : ∃ a ∈ tower, ∃ b ∈ tower, MeetAtZeros a b := by
      simp only [Seamless, not_forall, not_not] at hseam
      obtain ⟨a, ha, b, hb, hzeros⟩ := hseam
      exact ⟨a, hperm.mem_iff.mpr ha, b, hperm.mem_iff.mpr hb, hzeros⟩
    -- At the seam an entry goes before an exit, and these two fragments are dropped. What is kept
    -- are the sides of the tower without the box above the seam.
    obtain ⟨low, high, rfl⟩ := htower.exists_seam ha hb hzeros
    have hkept : kept = (low ++ a :: high).flatMap (sidesOf ray.start) := by
      rw [show kept = parityFilter met from rfl, hmet, htower.mergeSort_of_seam hzeros hsides,
        parityFilter_seamOf]
    have hrest := htower.filter_of_seam hzeros
    have hpart : IsTower ray.start (low ++ a :: high) := by
      rw [← hrest]
      exact ⟨fun c hc => htower.stands c (List.mem_of_mem_filter hc),
        htower.ascending.filter _⟩
    constructor
    · rw [hlength, hkept, length_flatMap_sidesOf, ← hperm.length_eq]
      simp
      omega
    · rw [hkept]
      exact hpart.shows.perm (hrest ▸ hperm.filter _)

/-- Two boxes over one square, the upper one registered first. The lower one ends at the first
height, and the upper one begins at the second. -/
def pile (ending beginning : Single) : Array Solid :=
  #[⟨none, ⟨⟨⟨0xc0000000⟩, beginning, ⟨0xc0000000⟩⟩, ⟨-.one, .one, -.one⟩⟩, ⟨.plain, []⟩⟩,
    ⟨none, ⟨⟨⟨0xc0000000⟩, -.one, ⟨0xc0000000⟩⟩, ⟨-.one, ending, -.one⟩⟩, ⟨.plain, []⟩⟩]

/-- The grid of the pile. -/
def pileGrid : Grid :=
  ⟨1, 1, .one, ⟨⟨0xc0000000⟩, -.one, ⟨0xc0000000⟩⟩, -.one, .one⟩

/-- The boxes near the only tile. -/
def pileBin : TileBin := ⟨⟨0, 0⟩, [0, 1], [], []⟩

/-- A ray through the middle of the tile. -/
def pileRay : VerticalRay := ⟨⟨0xbfc00000⟩, ⟨0xbfc00000⟩, ⟨0xc47a0000⟩⟩

/-- The boxes of the pile over the ray. -/
def pileOver (ending beginning : Single) : List (Nat × Box) :=
  [(0, ⟨⟨⟨0xc0000000⟩, beginning, ⟨0xc0000000⟩⟩, ⟨-.one, .one, -.one⟩⟩),
    (1, ⟨⟨⟨0xc0000000⟩, -.one, ⟨0xc0000000⟩⟩, ⟨-.one, ending, -.one⟩⟩)]

/-- The ray is over the boxes of the pile. -/
theorem over_pile (ending beginning : Single) :
    (pileBin.targets (pile ending beginning)).over pileRay = pileOver ending beginning := by
  refine List.filter_eq_self.mpr fun target htarget => ?_
  rcases List.mem_pair.mp (show target ∈ pileOver ending beginning from htarget) with rfl | rfl
  · exact (by decide : Box.containsXZ ⟨⟨⟨0xc0000000⟩, .zero, ⟨0xc0000000⟩⟩,
      ⟨-.one, .one, -.one⟩⟩ pileRay.x pileRay.z = true)
  · exact (by decide : Box.containsXZ ⟨⟨⟨0xc0000000⟩, -.one, ⟨0xc0000000⟩⟩,
      ⟨-.one, .one, -.one⟩⟩ pileRay.x pileRay.z = true)

/-- There are no meshes in the pile. -/
theorem polygons_pile (ending beginning : Single) :
    (pileBin.targets (pile ending beginning)).polygons = [] := rfl

/-- The pile stands clear, at whatever heights its boxes meet. -/
theorem stacked_pile (ending beginning : Single) (hend : -.one < ending)
    (hle : ending ≤ beginning) (hbegin : beginning < .one) (hfinite : ending.isFinite = true)
    (hfinite' : beginning.isFinite = true) :
    Stacked pileRay.start ((pileBin.targets (pile ending beginning)).over pileRay) := by
  have hstart : pileRay.start ≤ -.one := by decide
  have hlow : -.one ≤ beginning := Single.le_trans (Single.le_of_lt hend) hle
  rw [over_pile]
  refine ⟨fun target htarget => ?_, List.pairwise_pair.mpr (.inr hle)⟩
  rcases List.mem_pair.mp htarget with rfl | rfl
  · exact ⟨hfinite', (by decide : Single.one.isFinite = true), hbegin,
      Single.le_trans hstart hlow⟩
  · exact ⟨(by decide : (-Single.one).isFinite = true), hfinite, hend, hstart⟩

/-- A pile that meets at one half is two levels, though its upper box was registered first. -/
theorem pile_boxes_kept :
    let targets := pileBin.targets (pile .half .half)
    let met := castRay targets pileRay
    (∀ target ∈ targets.polygons, polygonFragment? pileRay target.1 target.2 = none) ∧
      Stacked pileRay.start (targets.over pileRay) ∧ Seamless (targets.over pileRay) ∧
      met.length = 4 ∧ parityFilter met = met ∧
      Shows pileRay.start (pileOver .half .half) (parityFilter met) := by
  have hpolygons : ∀ target ∈ (pileBin.targets (pile .half .half)).polygons,
      polygonFragment? pileRay target.1 target.2 = none := by
    rw [polygons_pile]
    exact fun _ h => nomatch h
  have hstacked := stacked_pile .half .half (by decide) (by decide) (by decide) (by decide)
    (by decide)
  have hseamless : Seamless ((pileBin.targets (pile .half .half)).over pileRay) := by
    rw [over_pile]
    unfold Seamless
    decide
  obtain ⟨hlength, hkept, -⟩ := stacked_boxes_kept hpolygons hstacked
  obtain ⟨hsame, hshows⟩ := hkept hseamless
  exact ⟨hpolygons, hstacked, hseamless, hlength, hsame, hshows⟩

/-- The boxes near the tile of a pile that meets at zeros of two signs. -/
theorem binSolids_pile : binSolids (pile .zero (-.zero)) pileGrid = #[pileBin] := by
  rw [binSolids_eq, show pileGrid.cells = [⟨0, 0⟩] from rfl, List.map_singleton, TileBin.of,
    pileBin]
  refine congrArg List.toArray (congrArg (· :: []) ?_)
  rw [TileBin.mk.injEq]
  refine ⟨rfl, ?_, ?_, ?_⟩
  · decide +kernel
  · decide +kernel
  · decide +kernel

/-- A pile whose lower box ends at `0` and whose upper box begins at `-0` is one level: the
ray meets four fragments and keeps those of the lower box. -/
theorem pile_loses_box :
    let solids := pile .zero (-.zero)
    let targets := pileBin.targets solids
    binSolids solids pileGrid = #[pileBin] ∧ targets.polygons = [] ∧
      targets.over pileRay = targets.boxes ∧
      Stacked pileRay.start (targets.over pileRay) ∧
      (castRay targets pileRay).length = 4 ∧
      parityFilter (castRay targets pileRay) = [⟨.down, -.one, 1⟩, ⟨.up, .zero, 1⟩] := by
  have hstacked := stacked_pile .zero (-.zero) (by decide) (by decide) (by decide) (by decide)
    (by decide)
  have hmet : castRay (pileBin.targets (pile .zero (-.zero))) pileRay
      = [⟨.down, -.one, 1⟩, ⟨.down, -.zero, 0⟩, ⟨.up, .zero, 1⟩, ⟨.up, .one, 0⟩] := by
    rw [castRay_eq (by rw [polygons_pile]; exact fun _ h => nomatch h) hstacked.stands, over_pile]
    exact Fragment.mergeSort_eq (by decide) (by unfold Fragment.StrictlyPrecedes; decide)
  refine ⟨binSolids_pile, rfl, over_pile _ _, hstacked, ?_, ?_⟩
  · rw [hmet]
    rfl
  · rw [hmet]
    decide

end Battlemap
