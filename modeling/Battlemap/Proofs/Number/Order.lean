import Battlemap.Proofs.Number.Pattern

/-!
# `Battlemap.Proofs.Number.Order`: the order of singles, least and greatest ones

The order of singles is that of their ranks, among those that are numbers.
`Single.least` is the least of some singles, which starts from infinity as
every search for the start of a level does. It does not rise when each
single of another list has one below it (`least_le_least`). `Single.greatest`
is the greatest one, as the searches for the end of a level find it.

Heights are sorted by the order that places every pattern. It refines the
order of numbers, and differs from it in the two zeros only
(`totalKey_lt_of_lt`, `totalKey_le_of_le`).
-/

set_option autoImplicit false

namespace Battlemap

namespace Single

/-- A number is at most itself; a NaN is not. -/
protected theorem le_refl {a : Single} (h : a.isNaN = false) : a ≤ a := ⟨h, h, Int.le_refl _⟩

/-- The order of numbers is transitive. -/
protected theorem le_trans {a b c : Single} (hab : a ≤ b) (hbc : b ≤ c) : a ≤ c :=
  ⟨hab.1, hbc.2.1, Int.le_trans hab.2.2 hbc.2.2⟩

instance : Trans (LE.le : Single → Single → Prop) (LE.le : Single → Single → Prop)
    (LE.le : Single → Single → Prop) := ⟨Single.le_trans⟩

/-- A lesser number is at most the other one. -/
protected theorem le_of_lt {a b : Single} (h : a < b) : a ≤ b := ⟨h.1, h.2.1, Int.le_of_lt h.2.2⟩

/-- What is at most a lesser number is lesser, too. -/
protected theorem lt_of_le_of_lt {a b c : Single} (hab : a ≤ b) (hbc : b < c) : a < c :=
  ⟨hab.1, hbc.2.1, Int.lt_of_le_of_lt hab.2.2 hbc.2.2⟩

/-- What is less than a number is less than any greater one. -/
protected theorem lt_of_lt_of_le {a b c : Single} (hab : a < b) (hbc : b ≤ c) : a < c :=
  ⟨hab.1, hbc.2.1, Int.lt_of_lt_of_le hab.2.2 hbc.2.2⟩

/-- No number is less than itself. -/
protected theorem lt_irrefl (a : Single) : ¬ a < a := fun h => Int.lt_irrefl _ h.2.2

/-- The order is total among numbers. -/
protected theorem not_le {a b : Single} (ha : a.isNaN = false) (hb : b.isNaN = false) :
    ¬ a ≤ b ↔ b < a :=
  ⟨fun h => ⟨hb, ha, Int.not_le.mp fun hle => h ⟨ha, hb, hle⟩⟩,
    fun h hle => Int.not_le.mpr h.2.2 hle.2.2⟩

/-- The order that places every pattern is finer than the order of
numbers. -/
theorem le_of_totalKey_le {a b : Single} (ha : a.isNaN = false) (hb : b.isNaN = false)
    (h : a.totalKey ≤ b.totalKey) : a ≤ b := by
  refine ⟨ha, hb, ?_⟩
  unfold totalKey at h
  unfold rank
  split at h <;> split at h <;> simp_all
  omega

/-- The rank of a pattern counts up from zero, or down from it if the first bit is set. -/
theorem rank_eq_ite (a : Single) : a.rank
    = if a.bits.toNat < 2 ^ 31 then (a.bits.toNat : ℤ) else 2 ^ 31 - a.bits.toNat := by
  have hlt := a.bits.toNat_lt
  have hsign := @signBit_eq_true_iff a
  unfold rank
  rw [toNat_magnitude]
  split <;> split <;> simp_all <;> omega

/-- The key of a pattern is its rank, but one less if the first bit is set, so that the zeros
have different keys. -/
theorem totalKey_eq_ite (a : Single) : a.totalKey
    = if a.bits.toNat < 2 ^ 31 then (a.bits.toNat : ℤ) else 2 ^ 31 - 1 - a.bits.toNat := by
  have hlt := a.bits.toNat_lt
  have hsign := @signBit_eq_true_iff a
  unfold totalKey
  rw [toNat_magnitude]
  split <;> split <;> simp_all <;> omega

/-- A lesser number comes first. -/
theorem totalKey_lt_of_lt {a b : Single} (h : a < b) : a.totalKey < b.totalKey := by
  have hrank := h.2.2
  rw [rank_eq_ite, rank_eq_ite] at hrank
  rw [totalKey_eq_ite, totalKey_eq_ite]
  split at hrank <;> split at hrank <;> simp_all <;> omega

/-- Of two numbers that differ in nothing but the sign of a zero, `0` does not come before
`-0`. All other numbers come as they are ordered. -/
theorem totalKey_le_of_le {a b : Single} (h : a ≤ b) (hzeros : ¬ (a = .zero ∧ b = -.zero)) :
    a.totalKey ≤ b.totalKey := by
  by_contra hlt
  have hrank := h.2.2
  rw [rank_eq_ite, rank_eq_ite] at hrank
  rw [totalKey_eq_ite, totalKey_eq_ite] at hlt
  have hbits : a.bits.toNat = 0 ∧ b.bits.toNat = 2 ^ 31 := by
    split at hrank <;> split at hrank <;> simp_all <;> omega
  refine hzeros ⟨?_, ?_⟩
  · exact congrArg Single.mk (UInt32.toNat_inj.mp hbits.1)
  · exact congrArg Single.mk (UInt32.toNat_inj.mp hbits.2)

/-- Infinity is a number. -/
theorem isNaN_infinity : infinity.isNaN = false := rfl

/-- Nothing is above infinity. -/
theorem le_infinity {a : Single} (h : a.isNaN = false) : a ≤ infinity := by
  refine ⟨h, rfl, ?_⟩
  have hmagnitude := isNaN_eq_false_iff.mp h
  rw [show infinity.rank = 255 * 2 ^ 23 from rfl]
  unfold rank
  split <;> omega

/-- Nothing is below negative infinity. -/
theorem negInfinity_le {a : Single} (h : a.isNaN = false) : negInfinity ≤ a := by
  refine ⟨rfl, h, ?_⟩
  have hmagnitude := isNaN_eq_false_iff.mp h
  rw [show negInfinity.rank = -(255 * 2 ^ 23) from rfl]
  unfold rank
  split <;> omega

/-- What the lesser of two numbers is. -/
theorem min_cases {a b : Single} (ha : a.isNaN = false) (hb : b.isNaN = false) :
    (a.min b = a ∨ a.min b = b) ∧ a.min b ≤ a ∧ a.min b ≤ b := by
  have hmin : a.min b = if a < b then a else b := by
    rw [Single.min, hb]
    rfl
  rw [hmin]
  split
  case isTrue hlt => exact ⟨.inl rfl, Single.le_refl ha, ha, hb, Int.le_of_lt hlt.2.2⟩
  case isFalse hnot =>
    exact ⟨.inr rfl, ⟨hb, ha, Int.not_lt.mp fun hlt => hnot ⟨ha, hb, hlt⟩⟩, Single.le_refl hb⟩

/-- What lies at or below the lesser of a number and a bound. A bound that is NaN bounds
nothing. -/
theorem le_min_iff {a b bound : Single} (hb : b.isNaN = false) :
    a ≤ b.min bound ↔ a ≤ b ∧ ¬ bound < a := by
  cases hbound : bound.isNaN with
  | true =>
    have hnone : ¬ bound < a := fun hlt => by simp [hlt.1] at hbound
    rw [Single.min, if_pos hbound, and_iff_left hnone]
  | false =>
    obtain ⟨hwhich, hmin, hmin'⟩ := min_cases hb hbound
    constructor
    · intro hle
      exact ⟨Single.le_trans hle hmin, fun hlt =>
        Int.not_lt.mpr (Single.le_trans hle hmin').2.2 hlt.2.2⟩
    · rintro ⟨hle, hnot⟩
      rcases hwhich with heq | heq
      · rw [heq]
        exact hle
      · rw [heq]
        exact ⟨hle.1, hbound, Int.not_lt.mp fun hlt => hnot ⟨hbound, hle.1, hlt⟩⟩

/-- What the greater of two numbers is. -/
theorem max_cases {a b : Single} (ha : a.isNaN = false) (hb : b.isNaN = false) :
    (a.max b = a ∨ a.max b = b) ∧ a ≤ a.max b ∧ b ≤ a.max b := by
  have hmax : a.max b = if b < a then a else b := by
    rw [Single.max, hb]
    rfl
  rw [hmax]
  split
  case isTrue hlt => exact ⟨.inl rfl, Single.le_refl ha, hb, ha, Int.le_of_lt hlt.2.2⟩
  case isFalse hnot =>
    exact ⟨.inr rfl, ⟨ha, hb, Int.not_lt.mp fun hlt => hnot ⟨hb, ha, hlt⟩⟩, Single.le_refl hb⟩

/-- The greater of two patterns is not below the lesser one, whatever they are. -/
theorem not_max_lt_min (a b : Single) : ¬ a.max b < a.min b := by
  have hirrefl (c : Single) : ¬ c < c := fun h => lt_irrefl _ h.2.2
  have hasymm {c d : Single} (h : c < d) : ¬ d < c := fun h' => lt_asymm h.2.2 h'.2.2
  unfold Single.min Single.max
  split
  · exact hirrefl a
  · split
    · rename_i hlt
      rw [if_neg (hasymm hlt)]
      exact hasymm hlt
    · rename_i hnot
      split
      · exact hnot
      · exact hirrefl b

/-- The least of some singles, or infinity. -/
def least (heights : List Single) : Single := heights.foldl Single.min infinity

/-- The least one from a start on is the start or one of the list, and none of
these is below it. -/
theorem foldl_min {heights : List Single} {start : Single} (hstart : start.isNaN = false)
    (h : ∀ a ∈ heights, a.isNaN = false) :
    (heights.foldl Single.min start = start ∨ heights.foldl Single.min start ∈ heights) ∧
      heights.foldl Single.min start ≤ start ∧
      ∀ a ∈ heights, heights.foldl Single.min start ≤ a := by
  induction heights generalizing start with
  | nil => exact ⟨.inl rfl, Single.le_refl hstart, fun a ha => absurd ha List.not_mem_nil⟩
  | cons b rest ih =>
    have hb := h b List.mem_cons_self
    -- The search goes on from the lesser of the start and the first element.
    obtain ⟨hwhich, hlestart, hleb⟩ := min_cases hstart hb
    obtain ⟨hfound, hle, hall⟩ := ih hlestart.1
      fun a ha => h a (List.mem_cons_of_mem b ha)
    rw [List.foldl_cons]
    refine ⟨?_, Single.le_trans hle hlestart, ?_⟩
    · rcases hfound with heq | hmem
      · rw [heq]
        exact hwhich.imp id fun heq' => by rw [heq']; exact List.mem_cons_self
      · exact .inr (List.mem_cons_of_mem b hmem)
    · intro a ha
      rcases List.mem_cons.mp ha with rfl | ha
      · exact Single.le_trans hle hleb
      · exact hall a ha

/-- The greatest one from a start on is below neither the start nor one of the list. -/
theorem le_foldl_max {heights : List Single} {start : Single} (hstart : start.isNaN = false)
    (h : ∀ a ∈ heights, a.isNaN = false) :
    start ≤ heights.foldl Single.max start ∧
      ∀ a ∈ heights, a ≤ heights.foldl Single.max start := by
  induction heights generalizing start with
  | nil => exact ⟨Single.le_refl hstart, fun a ha => absurd ha List.not_mem_nil⟩
  | cons b rest ih =>
    obtain ⟨-, hlestart, hleb⟩ := max_cases hstart (h b List.mem_cons_self)
    obtain ⟨hle, hall⟩ := ih hlestart.2.1 fun a ha => h a (List.mem_cons_of_mem b ha)
    rw [List.foldl_cons]
    refine ⟨Single.le_trans hlestart hle, ?_⟩
    intro a ha
    rcases List.mem_cons.mp ha with rfl | ha
    · exact Single.le_trans hleb hle
    · exact hall a ha

/-- The greatest of some singles, or negative infinity. -/
def greatest (heights : List Single) : Single := heights.foldl Single.max negInfinity

/-- Whatever it is compared with, the greatest one from a number on is a number. -/
theorem isNaN_foldl_max {heights : List Single} {start : Single} (hstart : start.isNaN = false) :
    (heights.foldl Single.max start).isNaN = false := by
  induction heights generalizing start with
  | nil => exact hstart
  | cons b rest ih =>
    rw [List.foldl_cons]
    cases hb : b.isNaN with
    | true =>
      rw [Single.max, if_pos hb]
      exact ih hstart
    | false => exact ih (max_cases hstart hb).2.1.2.1

/-- The greatest one from a start on is the start or one of the list. -/
theorem foldl_max_mem (heights : List Single) (start : Single) :
    heights.foldl Single.max start = start ∨ heights.foldl Single.max start ∈ heights := by
  induction heights generalizing start with
  | nil => exact .inl rfl
  | cons b rest ih =>
    have hmax : start.max b = start ∨ start.max b = b := by
      unfold Single.max
      split
      · exact .inl rfl
      · split
        · exact .inl rfl
        · exact .inr rfl
    rw [List.foldl_cons, List.mem_cons]
    rcases ih (start.max b) with heq | hmem
    · rw [heq]
      exact hmax.imp_right .inl
    · exact .inr (.inr hmem)

/-- No number of a list is above the greatest one. -/
theorem le_greatest {heights : List Single} (h : ∀ a ∈ heights, a.isNaN = false) {a : Single}
    (ha : a ∈ heights) : a ≤ greatest heights :=
  (le_foldl_max rfl h).2 a ha

/-- No number of a list is below the least one. -/
theorem least_le {heights : List Single} (h : ∀ a ∈ heights, a.isNaN = false) {a : Single}
    (ha : a ∈ heights) : least heights ≤ a :=
  (foldl_min isNaN_infinity h).2.2 a ha

/-- The least of some numbers is a number. -/
theorem isNaN_least {heights : List Single} (h : ∀ a ∈ heights, a.isNaN = false) :
    (least heights).isNaN = false :=
  (foldl_min isNaN_infinity h).2.1.1

/-- The least of some singles is one of them, if there is a finite one. -/
theorem least_mem {heights : List Single} (h : ∀ a ∈ heights, a.isFinite = true)
    (hne : heights ≠ []) : least heights ∈ heights := by
  have hnumber : ∀ a ∈ heights, a.isNaN = false := fun a ha => isNaN_of_isFinite (h a ha)
  rcases (foldl_min isNaN_infinity hnumber).1 with heq | hmem
  · obtain ⟨a, ha⟩ := List.exists_mem_of_ne_nil heights hne
    -- The first one already is below infinity.
    have hle := (least_le hnumber ha).2.2
    rw [least, heq, show infinity.rank = 255 * 2 ^ 23 from rfl] at hle
    have hlt := of_decide_eq_true (h a ha)
    rw [UInt32.lt_iff_toNat_lt] at hlt
    unfold rank at hle
    split at hle <;> simp at hlt hle <;> omega
  · exact hmem

/-- If each single of a list has one of another list below it, then so have the
least ones. -/
theorem least_le_least {low high : List Single} (hlow : ∀ a ∈ low, a.isNaN = false)
    (hhigh : ∀ b ∈ high, b.isNaN = false) (h : ∀ b ∈ high, ∃ a ∈ low, a ≤ b) :
    least low ≤ least high := by
  rcases (foldl_min isNaN_infinity hhigh).1 with heq | hmem
  · rw [show least high = infinity from heq]
    exact le_infinity (isNaN_least hlow)
  · obtain ⟨a, ha, hle⟩ := h _ hmem
    exact Single.le_trans (least_le hlow ha) hle

end Single

end Battlemap
