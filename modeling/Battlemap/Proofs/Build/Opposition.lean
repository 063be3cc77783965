import Battlemap.Proofs.Build.Neighbours
import Battlemap.Proofs.Number.Error

/-!
# `Battlemap.Proofs.Build.Opposition`: the two directions of a bond

Two solids that touch have a bond in each direction. The direction of either bond is read off
one component of the offset between the centres: the greatest one, Y before X and X before Z if
they are equal (`CardinalDirection.decisive`). The offset the other way has the opposite
components, so the same component decides, and its sign is the opposite one
(`Single.mirrored_sub`).

So the two directions are opposite whenever the sign says something, which is if the component
that decides is neither zero nor NaN. A zero counts as positive in both directions. Of finite
centres that is the case exactly if they are the same point: then both solids are above each
other, each counts the other one towards its integrity, and neither rests on anything. Only
centres beyond the range of numbers can have a NaN between them.

`opposite_bond_iff` says this for all solids and tiles, and `nested_support_each_other` has
two boxes around one centre.
-/

set_option autoImplicit false

namespace Battlemap

/-! ### Differences in both directions -/

namespace Single

variable {a b c d : Single}

/-- A number without its sign is a NaN exactly if the number is one. -/
theorem isNaN_abs (a : Single) : a.abs.isNaN = a.isNaN := by
  unfold isNaN abs magnitude
  simp [UInt32.and_assoc]

/-- Without its sign a number has the absolute value of its rank. -/
theorem rank_abs (a : Single) : a.abs.rank = |a.rank| := by
  have hlt : a.abs.bits.toNat < 2 ^ 31 := by
    show a.magnitude.toNat < 2 ^ 31
    rw [toNat_magnitude]
    exact Nat.mod_lt _ (by decide)
  rw [rank_eq_ite, if_pos hlt, abs_rank]
  rfl

/-- The absolute value is positive unless the single is zero or NaN. -/
theorem zero_lt_abs_iff : zero < a.abs ↔ a.isNaN = false ∧ a.rank ≠ 0 := by
  constructor
  · rintro ⟨-, hnumber, hpos⟩
    rw [rank_abs] at hpos
    exact ⟨isNaN_abs a ▸ hnumber, abs_pos.mp hpos⟩
  · rintro ⟨hnumber, hne⟩
    exact ⟨rfl, (isNaN_abs a).trans hnumber, rank_abs a ▸ abs_pos.mpr hne⟩

/-- Numbers are compared without their signs by the absolute values of their ranks. -/
theorem abs_le_abs_iff :
    a.abs ≤ c.abs ↔ a.isNaN = false ∧ c.isNaN = false ∧ |a.rank| ≤ |c.rank| := by
  rw [← isNaN_abs a, ← isNaN_abs c, ← rank_abs, ← rank_abs]
  rfl

/-- Two singles are opposite numbers, or both are NaN. -/
structure Mirrored (a b : Single) : Prop where
  isNaN : b.isNaN = a.isNaN
  rank : a.isNaN = false → b.rank = -a.rank

namespace Mirrored

/-- Being mirrored goes both ways. -/
theorem symm (h : Mirrored a b) : Mirrored b a :=
  ⟨h.isNaN.symm, fun hb => by rw [h.rank (h.isNaN ▸ hb), neg_neg]⟩

/-- Opposite numbers are equally great. -/
theorem abs_le_abs_congr (hab : Mirrored a b) (hcd : Mirrored c d) :
    a.abs ≤ c.abs ↔ b.abs ≤ d.abs := by
  rw [abs_le_abs_iff, abs_le_abs_iff, hab.isNaN, hcd.isNaN]
  refine and_congr_right fun ha => and_congr_right fun hc => ?_
  rw [hab.rank ha, hcd.rank hc, abs_neg, abs_neg]

/-- Exactly one of two opposite numbers is below zero, unless they are zero. -/
theorem zero_le_iff_not (h : Mirrored a b) : (zero ≤ b ↔ ¬ zero ≤ a) ↔ zero < a.abs := by
  have hle (a : Single) : zero ≤ a ↔ a.isNaN = false ∧ 0 ≤ a.rank := by
    refine ⟨fun hle => ⟨hle.2.1, hle.2.2⟩, fun hle => ⟨rfl, hle.1, hle.2⟩⟩
  rw [zero_lt_abs_iff, hle, hle, h.isNaN]
  cases hnumber : a.isNaN with
  | true => simp
  | false =>
    rw [h.rank hnumber]
    simp only [true_and]
    omega

end Mirrored

/-- Infinity taken from a finite number leaves negative infinity. -/
theorem sub_infinity (ha : a.isFinite = true) : a - infinity = negInfinity := by
  rw [sub_eq, unpacked_of_isFinite ha, unpacked_infinity]
  split <;> rfl

/-- Negative infinity taken from a finite number leaves infinity. -/
theorem sub_negInfinity (ha : a.isFinite = true) : a - negInfinity = infinity := by
  rw [sub_eq, unpacked_of_isFinite ha, unpacked_negInfinity]
  split <;> rfl

/-- The two differences of a finite number and another one are mirrored. -/
theorem mirrored_sub_of_isFinite (ha : a.isFinite = true) (hb : b.isNaN = false) :
    Mirrored (a - b) (b - a) := by
  cases hfinite : b.isFinite with
  | true =>
    have hforward := isNearest_sub ha hfinite
    have hback := isNearest_sub hfinite ha
    refine ⟨hback.isNaN.trans hforward.isNaN.symm, fun _ => ?_⟩
    rw [hback.rank, hforward.rank, ← nearestRank_neg, neg_sub]
  | false =>
    rcases infinite_cases hb hfinite with rfl | rfl
    · rw [sub_infinity ha, infinity_sub ha]
      exact ⟨rfl, fun _ => rfl⟩
    · rw [sub_negInfinity ha, negInfinity_sub ha]
      exact ⟨rfl, fun _ => rfl⟩

/-- The two differences of two numbers are opposite numbers. -/
theorem mirrored_sub (ha : a.isNaN = false) (hb : b.isNaN = false) : Mirrored (a - b) (b - a) := by
  cases hfinitea : a.isFinite with
  | true => exact mirrored_sub_of_isFinite hfinitea hb
  | false =>
    cases hfiniteb : b.isFinite with
    | true => exact (mirrored_sub_of_isFinite hfiniteb ha).symm
    | false =>
      -- The difference of an infinity with itself is NaN in both directions.
      rcases infinite_cases ha hfinitea with rfl | rfl <;>
        rcases infinite_cases hb hfiniteb with rfl | rfl <;>
        exact ⟨rfl, by decide⟩

/-- The difference of finite numbers is zero only for equal ones. -/
theorem rank_sub_eq_zero_iff (ha : a.isFinite = true) (hb : b.isFinite = true) :
    (b - a).rank = 0 ↔ a.rank = b.rank := by
  have hnumbera := isNaN_of_isFinite ha
  have hnumberb := isNaN_of_isFinite hb
  have hmirrored := mirrored_sub hnumbera hnumberb
  have hforward := zero_le_sub_iff ha hnumberb
  have hback := zero_le_sub_iff hb hnumbera
  have hnumber := (isNearest_sub ha hb).isNaN
  have hrank := hmirrored.rank hnumber
  have hle (c d : Single) (hc : c.isNaN = false) (hd : d.isNaN = false) :
      c ≤ d ↔ c.rank ≤ d.rank := ⟨fun h => h.2.2, fun h => ⟨hc, hd, h⟩⟩
  have hzero : zero.rank = 0 := rfl
  rw [hle _ _ rfl (isNearest_sub hb ha).isNaN, hle _ _ hnumbera hnumberb, hzero] at hforward
  rw [hle _ _ rfl hnumber, hle _ _ hnumberb hnumbera, hzero] at hback
  omega

/-- Halving a number gives a number. -/
theorem isNaN_mul_half (ha : a.isNaN = false) : (a * half).isNaN = false := by
  cases hfinite : a.isFinite with
  | true => exact (isNearest_mul hfinite rfl).isNaN
  | false => rcases infinite_cases ha hfinite with rfl | rfl <;> rfl

end Single

/-! ### The component that decides -/

namespace CardinalDirection

/-- The direction the other way. -/
def opposite : CardinalDirection → CardinalDirection
  | above => below
  | below => above
  | left => right
  | right => left
  | front => back
  | back => front

/-- The opposite of the opposite direction is the direction itself. -/
theorem opposite_opposite (d : CardinalDirection) : d.opposite.opposite = d := by
  cases d <;> rfl

/-- No direction is its own opposite. -/
theorem opposite_ne (d : CardinalDirection) : d.opposite ≠ d := by
  cases d <;> decide

/-- The component that the direction of an offset is read off, with the direction that it
stands for if it is positive. -/
def decisive (delta : Vec3) : Single × CardinalDirection :=
  if delta.x.abs ≤ delta.y.abs ∧ delta.z.abs ≤ delta.y.abs then (delta.y, above)
  else if delta.z.abs ≤ delta.x.abs then (delta.x, right)
  else (delta.z, front)

/-- The direction from one point to another is that of the decisive part of the offset, or the
opposite one if that part is negative. -/
theorem between_eq (a b : Vec3) : between a b =
    if Single.zero ≤ (decisive (b - a)).1 then (decisive (b - a)).2
    else (decisive (b - a)).2.opposite := by
  unfold between decisive
  dsimp only
  split
  · rfl
  · split <;> rfl

end CardinalDirection

namespace Vec3

/-- No component is NaN. -/
structure IsNumber (a : Vec3) : Prop where
  x : a.x.isNaN = false
  y : a.y.isNaN = false
  z : a.z.isNaN = false

/-- Two offsets in opposite directions. -/
structure Mirrored (d e : Vec3) : Prop where
  x : d.x.Mirrored e.x
  y : d.y.Mirrored e.y
  z : d.z.Mirrored e.z

/-- Two points with the same coordinates, as numbers. -/
structure Coincide (a b : Vec3) : Prop where
  x : a.x.sameNumber b.x = true
  y : a.y.sameNumber b.y = true
  z : a.z.sameNumber b.z = true

variable {a b d e : Vec3}

/-- Coinciding goes both ways. -/
theorem Coincide.symm (h : a.Coincide b) : b.Coincide a := by
  have hsymm {c d : Single} (h : c.sameNumber d = true) : d.sameNumber c = true := by
    simp_all [Single.sameNumber]
  exact ⟨hsymm h.x, hsymm h.y, hsymm h.z⟩

/-- A vector is finite if all its components are. -/
theorem isFinite_iff : a.isFinite = true ↔
    a.x.isFinite = true ∧ a.y.isFinite = true ∧ a.z.isFinite = true := by
  simp [isFinite, and_assoc]

/-- The offset between finite points has no NaN in it, though it may be infinite. -/
theorem isNumber_sub (ha : a.isFinite = true) (hb : b.isFinite = true) : (b - a).IsNumber := by
  obtain ⟨hax, hay, haz⟩ := isFinite_iff.mp ha
  obtain ⟨hbx, hby, hbz⟩ := isFinite_iff.mp hb
  exact ⟨(Single.isNearest_sub hbx hax).isNaN, (Single.isNearest_sub hby hay).isNaN,
    (Single.isNearest_sub hbz haz).isNaN⟩

/-- Finite points are the same if there is no offset between them. -/
theorem coincide_iff (ha : a.isFinite = true) (hb : b.isFinite = true) :
    a.Coincide b ↔ (b - a).x.rank = 0 ∧ (b - a).y.rank = 0 ∧ (b - a).z.rank = 0 := by
  obtain ⟨hax, hay, haz⟩ := isFinite_iff.mp ha
  obtain ⟨hbx, hby, hbz⟩ := isFinite_iff.mp hb
  have hsame {c d : Single} (hc : c.isFinite = true) (hd : d.isFinite = true) :
      c.sameNumber d = true ↔ (d - c).rank = 0 := by
    rw [Single.rank_sub_eq_zero_iff hc hd]
    simp [Single.sameNumber, Single.isNaN_of_isFinite hc, Single.isNaN_of_isFinite hd]
  constructor
  · rintro ⟨hx, hy, hz⟩
    exact ⟨(hsame hax hbx).mp hx, (hsame hay hby).mp hy, (hsame haz hbz).mp hz⟩
  · rintro ⟨hx, hy, hz⟩
    exact ⟨(hsame hax hbx).mpr hx, (hsame hay hby).mpr hy, (hsame haz hbz).mpr hz⟩

/-- The offsets there and back between two points are mirrored. -/
theorem mirrored_sub (ha : a.IsNumber) (hb : b.IsNumber) : (b - a).Mirrored (a - b) :=
  ⟨Single.mirrored_sub hb.x ha.x, Single.mirrored_sub hb.y ha.y, Single.mirrored_sub hb.z ha.z⟩

end Vec3

namespace CardinalDirection

variable {a b d e : Vec3}

/-- The same component decides in both directions. -/
theorem decisive_mirrored (h : d.Mirrored e) :
    (decisive e).2 = (decisive d).2 ∧ (decisive d).1.Mirrored (decisive e).1 := by
  have hy : e.x.abs ≤ e.y.abs ∧ e.z.abs ≤ e.y.abs ↔ d.x.abs ≤ d.y.abs ∧ d.z.abs ≤ d.y.abs :=
    and_congr (h.x.abs_le_abs_congr h.y).symm (h.z.abs_le_abs_congr h.y).symm
  have hx : e.z.abs ≤ e.x.abs ↔ d.z.abs ≤ d.x.abs := (h.z.abs_le_abs_congr h.x).symm
  unfold decisive
  simp only [hy, hx]
  split
  · exact ⟨rfl, h.y⟩
  · split
    · exact ⟨rfl, h.x⟩
    · exact ⟨rfl, h.z⟩

/-- The directions between two points are opposite exactly if the component that decides is
neither zero nor NaN. -/
theorem between_swap_iff (ha : a.IsNumber) (hb : b.IsNumber) :
    between b a = (between a b).opposite ↔ Single.zero < (decisive (b - a)).1.abs := by
  obtain ⟨hdirection, hmirrored⟩ := decisive_mirrored (Vec3.mirrored_sub ha hb)
  rw [← hmirrored.zero_le_iff_not, between_eq, between_eq, hdirection]
  have hne := opposite_ne (decisive (b - a)).2
  split <;> split <;> simp [*, opposite_opposite, Ne.symm hne]

/-- If there is no NaN then the greatest component decides. -/
theorem abs_rank_le_decisive (h : d.IsNumber) :
    (decisive d).1.isNaN = false ∧ |d.x.rank| ≤ |(decisive d).1.rank| ∧
      |d.y.rank| ≤ |(decisive d).1.rank| ∧ |d.z.rank| ≤ |(decisive d).1.rank| := by
  unfold decisive
  split
  case isTrue hy =>
    exact ⟨h.y, (Single.abs_le_abs_iff.mp hy.1).2.2, le_refl _, (Single.abs_le_abs_iff.mp hy.2).2.2⟩
  case isFalse hy =>
    simp only [Single.abs_le_abs_iff, h.x, h.y, h.z, true_and] at hy
    split
    case isTrue hx =>
      have hle := (Single.abs_le_abs_iff.mp hx).2.2
      exact ⟨h.x, le_refl _, by dsimp only; omega, hle⟩
    case isFalse hx =>
      simp only [Single.abs_le_abs_iff, h.x, h.z, true_and] at hx
      exact ⟨h.z, by dsimp only; omega, by dsimp only; omega, le_refl _⟩

/-- Without NaNs the component that decides is zero only if all are. -/
theorem zero_lt_decisive_iff (h : d.IsNumber) :
    Single.zero < (decisive d).1.abs ↔ ¬ (d.x.rank = 0 ∧ d.y.rank = 0 ∧ d.z.rank = 0) := by
  obtain ⟨hnumber, hx, hy, hz⟩ := abs_rank_le_decisive h
  rw [Single.zero_lt_abs_iff, and_iff_right hnumber, not_iff_not]
  constructor
  · intro hzero
    rw [hzero, abs_zero] at hx hy hz
    exact ⟨abs_nonpos_iff.mp hx, abs_nonpos_iff.mp hy, abs_nonpos_iff.mp hz⟩
  · rintro ⟨hx, hy, hz⟩
    unfold decisive
    split
    · exact hy
    · split
      · exact hx
      · exact hz

/-- A component that decides is there between two finite points unless these are the same. -/
theorem zero_lt_decisive_sub_iff (ha : a.isFinite = true) (hb : b.isFinite = true) :
    Single.zero < (decisive (b - a)).1.abs ↔ ¬ a.Coincide b := by
  rw [zero_lt_decisive_iff (Vec3.isNumber_sub ha hb), Vec3.coincide_iff ha hb]

/-- Between finite points that are the same, up is the direction. -/
theorem between_eq_above (ha : a.isFinite = true) (hb : b.isFinite = true) (h : a.Coincide b) :
    between a b = above := by
  obtain ⟨hx, hy, hz⟩ := Vec3.isNumber_sub ha hb
  obtain ⟨hxzero, hyzero, hzzero⟩ := (Vec3.coincide_iff ha hb).mp h
  have hxy : (b - a).x.abs ≤ (b - a).y.abs :=
    Single.abs_le_abs_iff.mpr ⟨hx, hy, by rw [hxzero, hyzero]⟩
  have hzy : (b - a).z.abs ≤ (b - a).y.abs :=
    Single.abs_le_abs_iff.mpr ⟨hz, hy, by rw [hzzero, hyzero]⟩
  have hpositive : Single.zero ≤ (b - a).y := ⟨rfl, hy, hyzero.ge⟩
  exact (if_pos ⟨hxy, hzy⟩).trans (if_pos hpositive)

end CardinalDirection

/-! ### Bonds in both directions -/

/-- Both corners of the box are finite. -/
structure Box.IsFinite (b : Box) : Prop where
  min : b.min.isFinite = true
  max : b.max.isFinite = true

/-- The centre of a finite box can lie beyond the range of numbers, but it is not NaN. -/
theorem Box.IsFinite.isNumber_center {b : Box} (h : b.IsFinite) : b.center.IsNumber := by
  obtain ⟨hminx, hminy, hminz⟩ := Vec3.isFinite_iff.mp h.min
  obtain ⟨hmaxx, hmaxy, hmaxz⟩ := Vec3.isFinite_iff.mp h.max
  exact ⟨Single.isNaN_mul_half (Single.isNearest_add hminx hmaxx).isNaN,
    Single.isNaN_mul_half (Single.isNearest_add hminy hmaxy).isNaN,
    Single.isNaN_mul_half (Single.isNearest_add hminz hmaxz).isNaN⟩

section
variable {solids : Array Solid} {bins : List TileBin} {i j : Nat} {a b : Solid}

/-- Solids that touch do so in both directions. -/
theorem Touches.symm {direction : CardinalDirection} (h : Touches solids bins i j direction)
    (ha : solids[i]? = some a) (hb : solids[j]? = some b) :
    Touches solids bins j i (.between b.bounds.center a.bounds.center) := by
  obtain ⟨bin, hbin, hi, hj⟩ := h.meet
  obtain ⟨a', b', ha', hb', hmeet, -⟩ := h.contact.intersects
  rw [ha] at ha'
  rw [hb] at hb'
  cases ha'
  cases hb'
  exact ⟨⟨bin, hbin, hj, hi⟩, h.contact.ne.symm, b, a, hb, ha, Box.intersects_comm _ _ ▸ hmeet, rfl⟩

/-- A solid touches another one in the direction from centre to centre. -/
theorem Touches.direction_eq {direction : CardinalDirection} (h : Touches solids bins i j direction)
    (ha : solids[i]? = some a) (hb : solids[j]? = some b) :
    direction = .between a.bounds.center b.bounds.center := by
  obtain ⟨a', b', ha', hb', -, hdirection⟩ := h.contact.intersects
  rw [ha] at ha'
  rw [hb] at hb'
  cases ha'
  cases hb'
  exact hdirection

/-- Each bond between solids with finite bounds has one bond back. The two have opposite
directions exactly if the component of the offset between the centres that decides is neither
zero nor NaN, and then exactly one of two solids in a stack has the other one below it. Of
finite centres that is so unless they are the same point, and then both solids are above each
other. -/
theorem opposite_bond_iff {bond : Bond} (hbond : bond ∈ collectBonds (contactBodies solids) bins)
    (ha : solids[bond.owner]? = some a) (hb : solids[bond.neighbour]? = some b)
    (hfinitea : a.bounds.IsFinite) (hfiniteb : b.bounds.IsFinite) :
    ∃ back ∈ collectBonds (contactBodies solids) bins,
      (back.owner = bond.neighbour ∧ back.neighbour = bond.owner) ∧
      (∀ other ∈ collectBonds (contactBodies solids) bins,
        other.owner = bond.neighbour → other.neighbour = bond.owner → other = back) ∧
      (back.direction = bond.direction.opposite ↔
        Single.zero < (CardinalDirection.decisive (b.bounds.center - a.bounds.center)).1.abs) ∧
      (back.direction = bond.direction.opposite →
        bond.direction = .above ∨ bond.direction = .below →
          Xor (bond.direction = .below) (back.direction = .below)) ∧
      (a.bounds.center.isFinite = true → b.bounds.center.isFinite = true →
        (back.direction = bond.direction.opposite ↔
          ¬ a.bounds.center.Coincide b.bounds.center) ∧
        (a.bounds.center.Coincide b.bounds.center →
          bond.direction = .above ∧ back.direction = .above)) := by
  have htouches := mem_collectBonds_iff.mp hbond
  -- The other solid touches this one too, and the bond of that is the only one back.
  have hback := htouches.symm ha hb
  have hdirection := htouches.direction_eq ha hb
  have hiff := CardinalDirection.between_swap_iff hfinitea.isNumber_center hfiniteb.isNumber_center
  rw [← hdirection] at hiff
  refine ⟨⟨_, _, _⟩, mem_collectBonds_iff.mpr hback, ⟨rfl, rfl⟩, ?_, hiff, ?_, ?_⟩
  · intro other hother howner hneighbour
    exact (mem_collectBonds_iff.mp hother).bond_eq hback howner hneighbour
  · rintro hopposite (habove | hbelow)
    · rw [hopposite, habove]
      exact .inr ⟨rfl, nofun⟩
    · rw [hopposite, hbelow]
      exact .inl ⟨rfl, nofun⟩
  · intro hcentera hcenterb
    refine ⟨hiff.trans (CardinalDirection.zero_lt_decisive_sub_iff hcentera hcenterb), fun h => ?_⟩
    exact ⟨hdirection.trans (CardinalDirection.between_eq_above hcentera hcenterb h),
      CardinalDirection.between_eq_above hcenterb hcentera h.symm⟩

end

/-- A box one wide in every direction, and a slimmer one of the same height around the same
centre. -/
def nestedBoxes : Array Solid :=
  #[unitBlock .zero .zero .zero,
    ⟨none, ⟨⟨⟨0x3e800000⟩, .zero, ⟨0x3e800000⟩⟩, ⟨⟨0x3f400000⟩, .one, ⟨0x3f400000⟩⟩⟩, ⟨.plain, []⟩⟩]

/-- The tile that has both. -/
def nestedTiles : List TileBin := [⟨⟨0, 0⟩, [0, 1], [], []⟩]

/-- The upper one of two blocks has the lower one below it, which has it above. -/
theorem blockPile_opposite :
    ∃ back ∈ collectBonds (contactBodies blockPile) blockTiles,
      (back.owner = 0 ∧ back.neighbour = 1) ∧ back.direction = .above := by
  have hbond : (⟨1, 0, .below⟩ : Bond) ∈ collectBonds (contactBodies blockPile) blockTiles :=
    mem_collectBonds_iff.mpr touches_blockPile
  obtain ⟨back, hback, hends, -, hopposite, -⟩ :=
    opposite_bond_iff hbond (a := unitBlock .zero .one .zero) (b := unitBlock .zero .zero .zero)
      rfl rfl ⟨by decide +kernel, by decide +kernel⟩ ⟨by decide +kernel, by decide +kernel⟩
  exact ⟨back, hback, hends, hopposite.mpr (by decide +kernel)⟩

/-- Both boxes are above the other one. So both count it towards their integrity, and neither
rests on anything. -/
theorem nested_support_each_other :
    (∀ solid ∈ nestedBoxes, solid.bounds.IsFinite) ∧
    (¬ ∀ bond ∈ collectBonds (contactBodies nestedBoxes) nestedTiles,
      ∀ back ∈ collectBonds (contactBodies nestedBoxes) nestedTiles,
        back.owner = bond.neighbour → back.neighbour = bond.owner →
          back.direction = bond.direction.opposite) ∧
    1 ∈ supporters nestedBoxes nestedTiles 0 ∧ 0 ∈ supporters nestedBoxes nestedTiles 1 ∧
    ∀ i j, ¬ Touches nestedBoxes nestedTiles i j .below := by
  have hfirst : Touches nestedBoxes nestedTiles 0 1 .above :=
    ⟨by decide, by decide, _, _, rfl, rfl, by decide +kernel⟩
  have hsecond : Touches nestedBoxes nestedTiles 1 0 .above :=
    ⟨by decide, by decide, _, _, rfl, rfl, by decide +kernel⟩
  have hfinite : ∀ solid ∈ nestedBoxes, solid.bounds.min.isFinite = true ∧
      solid.bounds.max.isFinite = true := by decide +kernel
  refine ⟨fun solid hsolid => ⟨(hfinite solid hsolid).1, (hfinite solid hsolid).2⟩, ?_,
    .inl hfirst, .inl hsecond, ?_⟩
  · intro hopposite
    have hdirection := hopposite ⟨0, 1, .above⟩ (mem_collectBonds_iff.mpr hfirst)
      ⟨1, 0, .above⟩ (mem_collectBonds_iff.mpr hsecond) rfl rfl
    exact absurd hdirection (by decide)
  · intro i j hbelow
    have hsize : nestedBoxes.size = 2 := rfl
    obtain ⟨hi, hj⟩ := hbelow.contact.lt_size
    have hne := hbelow.contact.ne
    -- There are two solids only, and both directions between them are known.
    rcases (by omega : i = 0 ∧ j = 1 ∨ i = 1 ∧ j = 0) with ⟨rfl, rfl⟩ | ⟨rfl, rfl⟩
    · cases hfirst.contact.direction_eq hbelow.contact
    · cases hsecond.contact.direction_eq hbelow.contact

end Battlemap
