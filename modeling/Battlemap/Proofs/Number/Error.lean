import Battlemap.Proofs.Number.Operations

/-!
# `Battlemap.Proofs.Number.Error`: how far a nearest single is from the exact number

Around a number of units the singles are `2 ^ doublings` units apart, so the nearest one is
`roundEven` of the number in that spacing (`IsNearest.units_eq`). It misses the number by
no more than half the spacing, which is one half of a unit where nothing has doubled, and
at most the part `2 ^ -24` of the number where something has (`IsNearest.error`).

Three forms of the bound are used further on. Above a whole number the nearest single is at
most a part `2 ^ -24` of that number below it (`IsNearest.sub_le_units`), and the same
holds below one (`IsNearest.units_le_add`). What needs no more than 24 binary digits is not
rounded at all, and neither does rounding go beyond it (`IsNearest.le_units_of_short`,
`IsNearest.units_le_of_short`).

No other single is nearer to the number (`IsNearest.abs_sub_le`): a single that is no multiple
of the spacing has fewer doublings, and lies further below.
-/

set_option autoImplicit false

namespace Battlemap

open Float.Model.UnpackedFloat (Sign)

/-! ### Whole numbers -/

/-- No whole number is nearer. -/
theorem abs_roundEven_sub_le_abs {x : ℚ} (hx : 0 ≤ x) (n : ℤ) :
    |(roundEven x : ℚ) - x| ≤ |(n : ℚ) - x| := by
  have hlow := Nat.floor_le hx
  have hhigh := Nat.lt_floor_add_one x
  -- No whole number lies between the two neighbours.
  have hn : x - ⌊x⌋₊ ≤ |(n : ℚ) - x| ∨ (⌊x⌋₊ : ℚ) + 1 - x ≤ |(n : ℚ) - x| := by
    rcases le_or_gt n ⌊x⌋₊ with hle | hgt
    · have hle' : (n : ℚ) ≤ ⌊x⌋₊ := by exact_mod_cast hle
      have habs := neg_abs_le ((n : ℚ) - x)
      exact .inl (by linarith)
    · have hgt' : (⌊x⌋₊ : ℚ) + 1 ≤ n := by exact_mod_cast hgt
      have habs := le_abs_self ((n : ℚ) - x)
      exact .inr (by linarith)
  have hhalf := abs_roundEven_sub_le hx
  unfold roundEven at hhalf ⊢
  split_ifs at hhalf ⊢ with hbelow habove
  · rw [abs_of_nonpos (by linarith)]
    rcases hn with h | h <;> linarith
  · push_cast at hhalf ⊢
    rw [abs_of_nonneg (by linarith)]
    rcases hn with h | h <;> linarith
  · -- In the middle both neighbours are equally near.
    rcases hn with h | h <;> linarith

/-- What is at most a whole number is not rounded beyond it. -/
theorem roundEven_le {x : ℚ} {n : ℕ} (h : x ≤ n) : roundEven x ≤ n := by
  have hmono := roundEven_mono h
  rwa [roundEven_natCast] at hmono

namespace Single

variable {a b c : Single} {y : ℚ}

/-! ### The order and finite singles -/

/-- A rank is the magnitude up to its sign. -/
theorem abs_rank (a : Single) : |a.rank| = a.magnitude.toNat := by
  rw [rank_eq_apply_sign]
  cases a.sign <;> simp [Sign.apply]

/-- A single is finite if no more singles are below it than below infinity. -/
theorem isFinite_iff_abs_rank_lt : a.isFinite = true ↔ |a.rank| < 255 * 2 ^ 23 := by
  rw [abs_rank, isFinite, decide_eq_true_eq, UInt32.lt_iff_toNat_lt]
  show a.magnitude.toNat < 255 * 2 ^ 23 ↔ _
  omega

/-- What lies between two finite singles is finite. -/
theorem isFinite_of_le_of_le (hab : a ≤ b) (hbc : b ≤ c) (ha : a.isFinite = true)
    (hc : c.isFinite = true) : b.isFinite = true := by
  rw [isFinite_iff_abs_rank_lt, abs_lt] at *
  have hlow := hab.2.2
  have hhigh := hbc.2.2
  constructor <;> omega

/-- A quotient by a positive finite number does not fall when its dividend rises, also where
the dividend is infinite. -/
theorem div_le_div_of_le (hab : a ≤ b) (hc : c.isFinite = true) (hpos : 0 < c.units) :
    a / c ≤ b / c := by
  have ha := isNaN_div hab.1 hc hpos
  have hb := isNaN_div hab.2.1 hc hpos
  cases hfinite : a.isFinite with
  | false =>
    rcases infinite_cases hab.1 hfinite with rfl | rfl
    · -- Only infinity is above infinity.
      have hb' : b.isFinite = false := by
        rw [Bool.eq_false_iff]
        intro hb'
        cases isFinite_of_le_of_le (a := zero) (by decide) hab rfl hb'
      rcases infinite_cases hab.2.1 hb' with rfl | rfl
      · exact Single.le_refl ha
      · exact absurd hab (by decide)
    · rw [negInfinity_div hc hpos]
      exact negInfinity_le hb
  | true =>
    cases hfinite' : b.isFinite with
    | true => exact Single.div_le_div hfinite hfinite' hc hpos hab
    | false =>
      rcases infinite_cases hab.2.1 hfinite' with rfl | rfl
      · rw [infinity_div hc hpos]
        exact le_infinity ha
      · cases isFinite_of_le_of_le hab (negInfinity_le hab.1) hfinite hfinite

/-- Rounding keeps the order. -/
theorem IsNearest.le (ha : a.IsNearest y) {z : ℚ} (hb : b.IsNearest z) (h : y ≤ z) : a ≤ b := by
  refine ⟨ha.isNaN, hb.isNaN, ?_⟩
  rw [ha.rank, hb.rank]
  exact nearestRank_mono h

/-- What is not negative is not rounded below zero. -/
theorem IsNearest.zero_le (h : a.IsNearest y) (hy : 0 ≤ y) : zero ≤ a :=
  IsNearest.le (isNearest_units (a := zero) rfl) h hy

/-- The greatest of some finite singles is one of them. -/
theorem greatest_mem {heights : List Single} (h : ∀ a ∈ heights, a.isFinite = true)
    (hne : heights ≠ []) : greatest heights ∈ heights := by
  rcases foldl_max_mem heights negInfinity with heq | hmem
  · obtain ⟨a, ha⟩ := List.exists_mem_of_ne_nil heights hne
    -- The first one already is above negative infinity.
    have hle : a ≤ negInfinity :=
      heq ▸ le_greatest (fun a ha => isNaN_of_isFinite (h a ha)) ha
    cases isFinite_of_le_of_le hle (negInfinity_le hle.1) (h a ha) (h a ha)
  · exact hmem

/-! ### Sums and differences -/

/-- A sum with a number that is not negative is not below the other term. -/
theorem le_add_of_zero_le (ha : a.isFinite = true) (hb : zero ≤ b) : a ≤ a + b := by
  cases hfinite : b.isFinite with
  | true =>
    refine (isNearest_units ha).le (isNearest_add ha hfinite) ?_
    have hunits : (0 : ℚ) ≤ b.units := by exact_mod_cast (le_iff_units_le rfl hfinite).mp hb
    linarith
  | false =>
    rw [eq_infinity_of_not_isFinite hb.2.1 hb.2.2 hfinite, add_infinity ha]
    exact le_infinity (isNaN_of_isFinite ha)

/-- A difference is not negative exactly if its terms are in order. Rounding does not lose
this, since the least difference is a single. -/
theorem zero_le_sub_iff (ha : a.isFinite = true) (hb : b.isNaN = false) :
    zero ≤ b - a ↔ a ≤ b := by
  cases hfinite : b.isFinite with
  | false =>
    rcases infinite_cases hb hfinite with rfl | rfl
    · rw [infinity_sub ha]
      exact iff_of_true (le_infinity rfl) (le_infinity (isNaN_of_isFinite ha))
    · rw [negInfinity_sub ha]
      refine iff_of_false (by decide) fun hle => ?_
      cases isFinite_of_le_of_le hle (negInfinity_le hle.1) ha ha
  | true =>
    have hnearest := isNearest_sub hfinite ha
    rw [le_iff_units_le ha hfinite]
    constructor
    · intro hle
      by_contra hlt
      -- The difference is a unit below zero at least, and this unit is a single.
      have hnegative : (b.units : ℚ) - a.units ≤ (-1 : ℤ) := by
        exact_mod_cast (by omega : b.units - a.units ≤ -1)
      have hnearest' : Single.IsNearest ⟨0x80000001⟩ (-1 : ℤ) := isNearest_units rfl
      exact absurd (Single.le_trans hle (hnearest.le hnearest' hnegative)) (by decide)
    · intro hle
      refine hnearest.zero_le (sub_nonneg.mpr ?_)
      exact_mod_cast hle

/-! ### The spacing of the singles -/

/-- A count can be written with a full significand in one way only, up to one more
doubling. -/
theorem mul_two_pow_eq_of_count_eq {k m d r : ℕ} (hm : m < 2 ^ 24) (hk : k = 0 ∨ 2 ^ 23 ≤ m)
    (hr : r ≤ 2 ^ 24) (hd : d = 0 ∨ 2 ^ 23 ≤ r) (h : k * 2 ^ 23 + m = d * 2 ^ 23 + r) :
    m * 2 ^ k = r * 2 ^ d := by
  rcases hr.lt_or_eq with hlt | rfl
  · obtain rfl : k = d := by omega
    obtain rfl : m = r := by omega
    rfl
  · obtain rfl : k = d + 1 := by omega
    obtain rfl : m = 2 ^ 23 := by omega
    ring

/-- A number of rank zero has no significand. -/
theorem significand_eq_zero_of_rank (h : a.rank = 0) : a.significand = 0 := by
  have hmagnitude := abs_rank a
  rw [h, abs_zero, toNat_magnitude_eq] at hmagnitude
  omega

/-- At or above zero the units of a single are those of its magnitude. -/
theorem units_of_rank_nonneg (h : 0 ≤ a.rank) :
    a.units = (a.significand * 2 ^ (a.exponentField - 1) : ℕ) := by
  cases hsign : a.sign with
  | positive =>
    rw [units, hsign]
    rfl
  | negative =>
    have hzero : a.rank = 0 := by
      refine le_antisymm ?_ h
      rw [rank_eq_apply_sign, hsign]
      exact neg_nonpos.mpr (Int.natCast_nonneg _)
    have hsignificand := significand_eq_zero_of_rank hzero
    rw [units_eq_zero_iff.mpr hsignificand, hsignificand, zero_mul]
    rfl

/-- The nearest single is the nearest whole number of spacings. -/
theorem IsNearest.units_eq (h : a.IsNearest y) (ha : a.isFinite = true) (hy : 0 ≤ y) :
    a.units = (roundEven (y / 2 ^ doublings y) * 2 ^ doublings y : ℕ) := by
  have hrank := h.rank
  rw [nearestRank_of_nonneg hy] at hrank
  have hnonneg : 0 ≤ a.rank := hrank ▸ Int.natCast_nonneg _
  rw [units_of_rank_nonneg hnonneg]
  -- Below infinity nothing is cut off, so both sides count the same.
  have hcount : (a.exponentField - 1) * 2 ^ 23 + a.significand
      = doublings y * 2 ^ 23 + roundEven (y / 2 ^ doublings y) := by
    have hfinite := isFinite_iff_abs_rank_lt.mp ha
    have hmagnitude := abs_rank a
    rw [abs_of_nonneg hnonneg, hrank] at hfinite hmagnitude
    rw [← toNat_magnitude_eq]
    unfold nearestCount at hfinite hmagnitude
    omega
  refine congrArg Nat.cast (mul_two_pow_eq_of_count_eq (significand_lt a) ?_ ?_ ?_ hcount)
  · by_cases hfield : a.exponentField - 1 = 0
    · exact .inl hfield
    · exact .inr (two_pow_le_significand hfield)
  · exact roundEven_le_of_lt (by positivity) (by exact_mod_cast lt_two_pow_doublings hy)
  · by_cases hzero : doublings y = 0
    · exact .inl hzero
    · exact .inr (le_roundEven (by exact_mod_cast two_pow_le_of_doublings hzero))

/-- What is not negative is not rounded to a negative number of units. -/
theorem IsNearest.units_nonneg (h : a.IsNearest y) (ha : a.isFinite = true) (hy : 0 ≤ y) :
    0 ≤ a.units := by
  rw [h.units_eq ha hy]
  exact Int.natCast_nonneg _

/-! ### The error -/

/-- What is not negative is rounded with an error of half a unit, or of one part in `2 ^ 24`. -/
theorem IsNearest.error_of_nonneg (h : a.IsNearest y) (ha : a.isFinite = true) (hy : 0 ≤ y) :
    |(a.units : ℚ) - y| ≤ 1 / 2 ∨ |(a.units : ℚ) - y| ≤ y / 2 ^ 24 := by
  have hspacing : (0 : ℚ) < 2 ^ doublings y := by positivity
  have hround := abs_roundEven_sub_le (x := y / 2 ^ doublings y) (by positivity)
  have hhalf : |(a.units : ℚ) - y| ≤ 2 ^ doublings y / 2 := by
    have hunits : (a.units : ℚ) - y
        = (roundEven (y / 2 ^ doublings y) - y / 2 ^ doublings y) * 2 ^ doublings y := by
      rw [h.units_eq ha hy]
      push_cast
      field_simp
    rw [hunits, abs_mul, abs_of_pos hspacing]
    have hscaled := mul_le_mul_of_nonneg_right hround hspacing.le
    linarith
  by_cases hzero : doublings y = 0
  · rw [hzero] at hhalf
    exact .inl (by linarith)
  · -- The spacing is small against the number, since the significand is full.
    have hfull := two_pow_le_of_doublings hzero
    rw [le_div_iff₀ hspacing] at hfull
    exact .inr (by linarith)

/-- The nearest single misses a number by one half of a unit, or by a small part of the
number. -/
theorem IsNearest.error (h : a.IsNearest y) (ha : a.isFinite = true) :
    |(a.units : ℚ) - y| ≤ 1 / 2 ∨ |(a.units : ℚ) - y| ≤ |y| / 2 ^ 24 := by
  rcases le_total 0 y with hy | hy
  · rw [abs_of_nonneg hy]
    exact h.error_of_nonneg ha hy
  · have herror := h.neg.error_of_nonneg (by rw [isFinite_neg, ha]) (neg_nonneg.mpr hy)
    rw [units_neg, Int.cast_neg, neg_sub_neg, abs_sub_comm] at herror
    rw [abs_of_nonpos hy]
    exact herror

/-- The bound of the relative error rises with the number. -/
theorem sub_abs_div_le {x z : ℚ} (h : x ≤ z) : x - |x| / 2 ^ 24 ≤ z - |z| / 2 ^ 24 := by
  have habs : |z| ≤ |x| + (z - x) := by
    have htriangle := abs_add_le x (z - x)
    rwa [add_sub_cancel, abs_of_nonneg (sub_nonneg.mpr h)] at htriangle
  linarith

/-- Above a whole number the nearest single is at most a small part of it below. -/
theorem IsNearest.sub_le_units (h : a.IsNearest y) (ha : a.isFinite = true) {n : ℤ}
    (hn : (n : ℚ) ≤ y) : (n : ℚ) - |(n : ℚ)| / 2 ^ 24 ≤ a.units := by
  rcases h.error ha with herror | herror
  · -- One half of a unit below a whole number there is no other one.
    have hlow := (abs_le.mp herror).1
    have hunits : n ≤ a.units := by
      have hlt : (n : ℚ) < a.units + 1 := by linarith
      exact Int.lt_add_one_iff.mp (by exact_mod_cast hlt)
    have hunits' : (n : ℚ) ≤ a.units := by exact_mod_cast hunits
    have hsmall : 0 ≤ |(n : ℚ)| / 2 ^ 24 := by positivity
    linarith
  · have hlow := (abs_le.mp herror).1
    have hmono := sub_abs_div_le hn
    linarith

/-- Below a whole number the nearest single is at most a small part of it above. -/
theorem IsNearest.units_le_add (h : a.IsNearest y) (ha : a.isFinite = true) {n : ℤ}
    (hn : y ≤ n) : (a.units : ℚ) ≤ n + |(n : ℚ)| / 2 ^ 24 := by
  have hneg := h.neg.sub_le_units (n := -n) (by rw [isFinite_neg, ha])
    (by push_cast; linarith)
  rw [units_neg] at hneg
  push_cast at hneg
  rw [abs_neg] at hneg
  linarith

/-- A whole number of units is missed by a small part of it only. -/
theorem IsNearest.abs_units_sub_le {n : ℤ} (h : a.IsNearest n) (ha : a.isFinite = true) :
    |(a.units : ℚ) - n| ≤ |(n : ℚ)| / 2 ^ 24 := by
  have hlow := h.sub_le_units ha le_rfl
  have hhigh := h.units_le_add ha le_rfl
  rw [abs_le]
  constructor <;> linarith

/-! ### The nearest of all singles -/

/-- A sign does not change what a number is divisible by. -/
theorem dvd_apply {s : Sign} {d n : ℤ} (h : d ∣ n) : d ∣ s.apply n := by
  cases s with
  | positive => exact h
  | negative => exact (Int.dvd_neg).mpr h

/-- Without its sign a number of units is the significand, shifted by the exponent. -/
theorem natAbs_units (a : Single) : a.units.natAbs = a.significand * 2 ^ (a.exponentField - 1) := by
  rw [units]
  cases a.sign <;> simp [Sign.apply, Int.natAbs_mul, Int.natAbs_pow]

/-- A single is a multiple of a power of two, unless its spacing is less; then it is below all
singles of that spacing. -/
theorem dvd_units_or_lt (b : Single) (d : ℕ) :
    (2 ^ d : ℤ) ∣ b.units ∨ 0 < d ∧ b.units < 2 ^ 23 * 2 ^ d := by
  rcases le_or_gt d (b.exponentField - 1) with hle | hlt
  · left
    rw [units]
    refine dvd_apply ?_
    push_cast
    exact Dvd.dvd.mul_left (pow_dvd_pow 2 hle) _
  · right
    -- The significand has 24 digits, and its spacing is one doubling short at least.
    have hmagnitude : b.units.natAbs < 2 ^ 23 * 2 ^ d :=
      calc b.units.natAbs = b.significand * 2 ^ (b.exponentField - 1) := natAbs_units b
        _ < 2 ^ 24 * 2 ^ (b.exponentField - 1) := by
          gcongr
          exact significand_lt b
        _ = 2 ^ 23 * 2 ^ (b.exponentField - 1 + 1) := by ring
        _ ≤ 2 ^ 23 * 2 ^ d := by
          gcongr
          · norm_num
          · exact hlt
    exact ⟨Nat.zero_lt_of_lt hlt, lt_of_le_of_lt Int.le_natAbs (by exact_mod_cast hmagnitude)⟩

/-- No other single is nearer to what is not negative. -/
theorem IsNearest.abs_sub_le_of_nonneg (h : a.IsNearest y) (ha : a.isFinite = true) (hy : 0 ≤ y)
    (b : Single) : |(a.units : ℚ) - y| ≤ |(b.units : ℚ) - y| := by
  have hspacing : (0 : ℚ) < 2 ^ doublings y := by positivity
  have hround (n : ℤ) : |(a.units : ℚ) - y| ≤ |(n : ℚ) * 2 ^ doublings y - y| := by
    have hscale (m : ℚ) : |m * 2 ^ doublings y - y|
        = |m - y / 2 ^ doublings y| * 2 ^ doublings y := by
      rw [← abs_of_pos hspacing, ← abs_mul, abs_of_pos hspacing, sub_mul,
        div_mul_cancel₀ y hspacing.ne']
    rw [h.units_eq ha hy, hscale]
    push_cast
    rw [hscale]
    exact mul_le_mul_of_nonneg_right (abs_roundEven_sub_le_abs (by positivity) n) hspacing.le
  rcases dvd_units_or_lt b (doublings y) with ⟨n, hn⟩ | ⟨hdoubled, hlt⟩
  · have hmultiple := hround n
    rw [hn]
    push_cast
    rwa [mul_comm]
  · -- The least number of the spacing lies between the other single and the number.
    have hfull := two_pow_le_of_doublings hdoubled.ne'
    rw [le_div_iff₀ hspacing] at hfull
    have hlt' : (b.units : ℚ) < 2 ^ 23 * 2 ^ doublings y := by exact_mod_cast hlt
    have hleast := hround (2 ^ 23)
    rw [Int.cast_pow, Int.cast_ofNat] at hleast
    rw [abs_of_nonpos (by linarith : (2 : ℚ) ^ 23 * 2 ^ doublings y - y ≤ 0)] at hleast
    rw [abs_of_nonpos (by linarith : (b.units : ℚ) - y ≤ 0)]
    linarith

/-- Among all singles the nearest one is nearest. -/
theorem IsNearest.abs_sub_le (h : a.IsNearest y) (ha : a.isFinite = true) (b : Single) :
    |(a.units : ℚ) - y| ≤ |(b.units : ℚ) - y| := by
  rcases le_total 0 y with hy | hy
  · exact h.abs_sub_le_of_nonneg ha hy b
  · have hneg := h.neg.abs_sub_le_of_nonneg (by rw [isFinite_neg, ha]) (neg_nonneg.mpr hy) (-b)
    rw [units_neg, units_neg, Int.cast_neg, Int.cast_neg, neg_sub_neg, neg_sub_neg,
      abs_sub_comm, abs_sub_comm y] at hneg
    exact hneg

/-! ### Numbers of few digits -/

/-- Where the spacing exceeds `2 ^ k`, all numbers are greater than 24 digits times that. -/
theorem short_le_of_doublings {k : ℕ} (h : k < doublings y) : (2 : ℚ) ^ 24 * 2 ^ k ≤ y := by
  have hfull := two_pow_le_of_doublings (Nat.ne_of_gt (Nat.zero_lt_of_lt h))
  rw [le_div_iff₀ (by positivity)] at hfull
  calc (2 : ℚ) ^ 24 * 2 ^ k = 2 ^ 23 * 2 ^ (k + 1) := by ring
    _ ≤ 2 ^ 23 * 2 ^ doublings y := by gcongr; exacts [by norm_num, h]
    _ ≤ y := hfull

/-- In the spacing, a number of few digits is whole. -/
theorem short_div_two_pow {d k : ℕ} (h : d ≤ k) (j : ℕ) :
    ((j : ℚ) * 2 ^ k) / 2 ^ d = (j * 2 ^ (k - d) : ℕ) := by
  rw [div_eq_iff (by positivity)]
  push_cast
  rw [mul_assoc, ← pow_add, Nat.sub_add_cancel h]

/-- A power of two can be split between a number and its unit. -/
theorem short_mul_two_pow {d k : ℕ} (h : d ≤ k) (j : ℕ) :
    j * 2 ^ (k - d) * 2 ^ d = j * 2 ^ k := by
  rw [mul_assoc, ← pow_add, Nat.sub_add_cancel h]

/-- Rounding does not go below a number of few digits. -/
theorem IsNearest.le_units_of_short (h : a.IsNearest y) (ha : a.isFinite = true) {j k : ℕ}
    (hj : j ≤ 2 ^ 24) (hy : (j : ℚ) * 2 ^ k ≤ y) : (j : ℤ) * 2 ^ k ≤ a.units := by
  have hnonneg : 0 ≤ y := le_trans (by positivity) hy
  rw [h.units_eq ha hnonneg]
  rcases le_or_gt (doublings y) k with hle | hlt
  · have hround : j * 2 ^ (k - doublings y) ≤ roundEven (y / 2 ^ doublings y) := by
      refine le_roundEven ?_
      rw [← short_div_two_pow hle]
      gcongr
    have hscaled := Nat.mul_le_mul_right (2 ^ doublings y) hround
    rw [short_mul_two_pow hle] at hscaled
    exact_mod_cast hscaled
  · -- The number is beyond all numbers of so few digits, and so is what it is rounded to.
    have hround : 2 ^ 23 ≤ roundEven (y / 2 ^ doublings y) := by
      refine le_roundEven ?_
      exact_mod_cast two_pow_le_of_doublings (Nat.ne_of_gt (Nat.zero_lt_of_lt hlt))
    have hscaled : j * 2 ^ k ≤ roundEven (y / 2 ^ doublings y) * 2 ^ doublings y :=
      calc j * 2 ^ k ≤ 2 ^ 24 * 2 ^ k := by gcongr
        _ = 2 ^ 23 * 2 ^ (k + 1) := by ring
        _ ≤ roundEven (y / 2 ^ doublings y) * 2 ^ doublings y :=
          Nat.mul_le_mul hround (Nat.pow_le_pow_right two_pos hlt)
    exact_mod_cast hscaled

/-- Rounding does not go above a number of few digits. -/
theorem IsNearest.units_le_of_short (h : a.IsNearest y) (ha : a.isFinite = true) (hnonneg : 0 ≤ y)
    {j k : ℕ} (hj : j < 2 ^ 24) (hy : y ≤ (j : ℚ) * 2 ^ k) : a.units ≤ (j : ℤ) * 2 ^ k := by
  rw [h.units_eq ha hnonneg]
  have hle : doublings y ≤ k := by
    by_contra hlt
    have hlarge := short_le_of_doublings (not_le.mp hlt)
    have hsmall : (j : ℚ) * 2 ^ k < 2 ^ 24 * 2 ^ k := by
      gcongr
      exact_mod_cast hj
    linarith
  have hround : roundEven (y / 2 ^ doublings y) ≤ j * 2 ^ (k - doublings y) := by
    refine roundEven_le ?_
    rw [← short_div_two_pow hle]
    gcongr
  have hscaled := Nat.mul_le_mul_right (2 ^ doublings y) hround
  rw [short_mul_two_pow hle] at hscaled
  exact_mod_cast hscaled

end Single

end Battlemap
