import Mathlib.Algebra.Order.Field.Rat
import Mathlib.Algebra.Order.Floor.Semiring
import Mathlib.Data.Nat.Log
import Mathlib.Data.Rat.Floor
import Mathlib.Tactic.FieldSimp
import Mathlib.Tactic.Linarith
import Mathlib.Tactic.NormNum
import Mathlib.Tactic.Positivity
import Mathlib.Tactic.Ring

/-!
# `Battlemap.Proofs.Number.Rounding`: the nearest single, as a count

The magnitudes of the singles are counted upwards from zero by their bit
patterns. Measured in the least positive single, the magnitude with
`steps` doublings of the spacing behind it and the significand `n` is
`n * 2 ^ steps`, and its count is `steps * 2 ^ 23 + n`.

`roundEven` rounds a rational number to a whole one, and `nearestCount`
is the count of the magnitude nearest to a rational number of units. That
it keeps the order (`nearestCount_mono`) is the reason why sums and
quotients of singles do. A magnitude that needs no rounding has its own
count (`nearestCount_mul_two_pow`).
-/

set_option autoImplicit false

namespace Battlemap

/-! ### Whole numbers -/

/-- The whole number nearest to a rational number that is not negative; of
two, the even one. -/
def roundEven (x : ℚ) : ℕ :=
  if x - ⌊x⌋₊ < 1 / 2 then ⌊x⌋₊
  else if 1 / 2 < x - ⌊x⌋₊ then ⌊x⌋₊ + 1
  else ⌊x⌋₊ + ⌊x⌋₊ % 2

/-- Rounding to nearest does not go below the whole part. -/
theorem floor_le_roundEven (x : ℚ) : ⌊x⌋₊ ≤ roundEven x := by
  unfold roundEven
  split_ifs <;> omega

/-- Neither does it go above the next whole number. -/
theorem roundEven_le_floor_add_one (x : ℚ) : roundEven x ≤ ⌊x⌋₊ + 1 := by
  unfold roundEven
  split_ifs <;> omega

/-- Whole numbers are not changed by rounding. -/
@[simp] theorem roundEven_natCast (n : ℕ) : roundEven n = n := by
  simp [roundEven]

/-- Rounding to nearest keeps the order. -/
theorem roundEven_mono {x y : ℚ} (h : x ≤ y) : roundEven x ≤ roundEven y := by
  rcases (Nat.floor_mono h).lt_or_eq with hlt | heq
  · calc roundEven x ≤ ⌊x⌋₊ + 1 := roundEven_le_floor_add_one x
      _ ≤ ⌊y⌋₊ := hlt
      _ ≤ roundEven y := floor_le_roundEven y
  · -- Between the same whole numbers the remainders decide.
    unfold roundEven
    rw [heq]
    split_ifs <;> first | omega | (exfalso; linarith)

/-- What is below a whole number is not rounded beyond it. -/
theorem roundEven_le_of_lt {x : ℚ} (hx : 0 ≤ x) {n : ℕ} (h : x < n) : roundEven x ≤ n :=
  (roundEven_le_floor_add_one x).trans ((Nat.floor_lt hx).mpr h)

/-- What is at least a whole number is not rounded below it. -/
theorem le_roundEven {x : ℚ} {n : ℕ} (h : (n : ℚ) ≤ x) : n ≤ roundEven x :=
  (Nat.le_floor h).trans (floor_le_roundEven x)

/-- The nearest whole number is at most one half away. -/
theorem abs_roundEven_sub_le {x : ℚ} (hx : 0 ≤ x) : |(roundEven x : ℚ) - x| ≤ 1 / 2 := by
  have hlow := Nat.floor_le hx
  have hhigh := Nat.lt_floor_add_one x
  have hlast : ((⌊x⌋₊ % 2 : ℕ) : ℚ) ≤ 1 := by
    exact_mod_cast Nat.lt_succ_iff.mp (Nat.mod_lt _ two_pos)
  unfold roundEven
  split_ifs with hbelow habove
  · rw [abs_le]
    constructor <;> linarith
  · push_cast
    rw [abs_le]
    constructor <;> linarith
  · -- In the middle both neighbours are equally near.
    have hlast' : (0 : ℚ) ≤ (⌊x⌋₊ % 2 : ℕ) := Nat.cast_nonneg _
    push_cast at hlast hlast' ⊢
    rw [abs_le]
    constructor <;> linarith

/-! ### Singles -/

/-- Each factor of two is one more binary digit. -/
theorem log2_mul_two_pow {n : ℕ} (h : n ≠ 0) (k : ℕ) : (n * 2 ^ k).log2 = n.log2 + k := by
  rw [Nat.log2_eq_iff (by positivity), Nat.add_right_comm, pow_add, pow_add]
  exact ⟨Nat.mul_le_mul_right _ (Nat.log2_self_le h),
    Nat.mul_lt_mul_of_pos_right Nat.lt_log2_self (by positivity)⟩

/-- How often the spacing of the singles has doubled at a number of
units. -/
def doublings (y : ℚ) : ℕ := ⌊y⌋₊.log2 - 23

/-- The count of the magnitude nearest to a number of units, as if there
was no greatest one. -/
def nearestCount (y : ℚ) : ℕ := doublings y * 2 ^ 23 + roundEven (y / 2 ^ doublings y)

/-- The doublings are known from the binade. -/
theorem doublings_eq_of_binade {y : ℚ} {k : ℤ} (hlow : (2 : ℚ) ^ k ≤ y) (hhigh : y < 2 ^ (k + 1)) :
    (doublings y : ℤ) = max (k - 23) 0 := by
  have hy : 0 ≤ y := (zpow_nonneg (by norm_num) k).trans hlow
  unfold doublings
  rcases lt_or_ge k 0 with hk | hk
  · -- Below one unit nothing has doubled.
    have hone : y < 1 := hhigh.trans_le (zpow_le_one_of_nonpos₀ (by norm_num) (by omega))
    rw [Nat.floor_eq_zero.mpr hone]
    simp
    omega
  · lift k to ℕ using hk
    rw [zpow_natCast] at hlow
    rw [← Nat.cast_succ, zpow_natCast] at hhigh
    have hne : ⌊y⌋₊ ≠ 0 := by
      have hone : 1 ≤ y := (one_le_pow₀ (by norm_num)).trans hlow
      exact (Nat.floor_pos.mpr hone).ne'
    have hlog : ⌊y⌋₊.log2 = k := by
      rw [Nat.log2_eq_iff hne]
      exact ⟨Nat.le_floor (by exact_mod_cast hlow), (Nat.floor_lt hy).mpr (by exact_mod_cast hhigh)⟩
    rw [hlog]
    omega

/-- Divided by its spacing, a number of units has at most 24 digits. -/
theorem lt_two_pow_doublings {y : ℚ} (hy : 0 ≤ y) : y / 2 ^ doublings y < 2 ^ 24 := by
  rw [div_lt_iff₀ (by positivity), ← pow_add]
  have hlt : ⌊y⌋₊ < 2 ^ (24 + doublings y) :=
    Nat.lt_log2_self.trans_le (Nat.pow_le_pow_right (by norm_num) (by unfold doublings; omega))
  exact_mod_cast (Nat.floor_lt hy).mp hlt

/-- It has all of them once the spacing has doubled. -/
theorem two_pow_le_of_doublings {y : ℚ} (h : doublings y ≠ 0) :
    2 ^ 23 ≤ y / 2 ^ doublings y := by
  rw [le_div_iff₀ (by positivity), ← pow_add]
  unfold doublings at h ⊢
  have hne : ⌊y⌋₊ ≠ 0 := by
    intro hzero
    simp [hzero] at h
  have hle : 2 ^ (23 + (⌊y⌋₊.log2 - 23)) ≤ ⌊y⌋₊ := by
    rw [Nat.add_sub_cancel' (by omega)]
    exact Nat.log2_self_le hne
  exact_mod_cast (Nat.le_floor_iff' (by positivity)).mp hle

/-- The spacing never falls as numbers grow. -/
theorem doublings_mono {x y : ℚ} (h : x ≤ y) : doublings x ≤ doublings y := by
  unfold doublings
  have hfloor := Nat.floor_mono h
  have hlog : ⌊x⌋₊.log2 ≤ ⌊y⌋₊.log2 := by
    rw [Nat.log2_eq_log_two, Nat.log2_eq_log_two]
    exact Nat.log_mono_right hfloor
  omega

/-- A greater number is not rounded to a lesser magnitude. -/
theorem nearestCount_mono {x y : ℚ} (hx : 0 ≤ x) (h : x ≤ y) : nearestCount x ≤ nearestCount y := by
  unfold nearestCount
  rcases (doublings_mono h).eq_or_lt with heq | hlt
  · rw [heq]
    gcongr
    exact roundEven_mono (by gcongr)
  · -- The nearest count of `x` is at most the first one of the next binade.
    have hlow : roundEven (x / 2 ^ doublings x) ≤ 2 ^ 24 :=
      roundEven_le_of_lt (by positivity) (by exact_mod_cast lt_two_pow_doublings hx)
    have hne : doublings y ≠ 0 := Nat.ne_of_gt (Nat.zero_lt_of_lt hlt)
    have hhigh : 2 ^ 23 ≤ roundEven (y / 2 ^ doublings y) :=
      le_roundEven (by exact_mod_cast two_pow_le_of_doublings hne)
    omega

/-- A magnitude needs no rounding. -/
theorem nearestCount_mul_two_pow {n steps : ℕ} (hn : n < 2 ^ 24)
    (hsteps : steps = 0 ∨ 2 ^ 23 ≤ n) :
    nearestCount ((n : ℚ) * 2 ^ steps) = steps * 2 ^ 23 + n := by
  have hfloor : ⌊(n : ℚ) * 2 ^ steps⌋₊ = n * 2 ^ steps := by
    rw [← Nat.cast_two, ← Nat.cast_pow, ← Nat.cast_mul, Nat.floor_natCast]
  -- The magnitude has its own spacing: no doublings below the first normal one, and else 24
  -- digits.
  have hdoublings : doublings ((n : ℚ) * 2 ^ steps) = steps := by
    unfold doublings
    rw [hfloor]
    rcases hsteps with rfl | hnormal
    · rw [pow_zero, mul_one]
      have hlog : n.log2 ≤ 23 := by
        rcases Nat.eq_zero_or_pos n with rfl | hpos
        · simp
        · exact Nat.lt_succ_iff.mp ((Nat.log2_lt hpos.ne').mpr hn)
      omega
    · have hne : n ≠ 0 := by omega
      have hlog : n.log2 = 23 := (Nat.log2_eq_iff hne).mpr ⟨hnormal, hn⟩
      rw [log2_mul_two_pow hne, hlog]
      omega
  rw [nearestCount, hdoublings, mul_div_cancel_right₀ _ (by positivity), roundEven_natCast]

/-- The rank of the single nearest to a number of units; what is too large
has the rank of infinity. -/
def nearestRank (y : ℚ) : ℤ :=
  if y < 0 then -(min (nearestCount (-y)) (255 * 2 ^ 23) : ℕ)
  else (min (nearestCount y) (255 * 2 ^ 23) : ℕ)

/-- The rank nearest to what is not negative is the nearest count, at most that of infinity. -/
theorem nearestRank_of_nonneg {y : ℚ} (h : 0 ≤ y) :
    nearestRank y = (min (nearestCount y) (255 * 2 ^ 23) : ℕ) :=
  if_neg (not_lt.mpr h)

/-- Zero has the count zero. -/
@[simp] theorem nearestCount_zero : nearestCount 0 = 0 := by
  have h : nearestCount (((0 : ℕ) : ℚ) * 2 ^ 0) = 0 * 2 ^ 23 + 0 :=
    nearestCount_mul_two_pow (by norm_num) (.inl rfl)
  simpa using h

/-- Rounding to nearest does not prefer a sign. -/
theorem nearestRank_neg (y : ℚ) : nearestRank (-y) = -nearestRank y := by
  unfold nearestRank
  rcases lt_trichotomy y 0 with h | rfl | h
  · rw [if_neg (by linarith), if_pos h, neg_neg]
  · simp
  · rw [if_pos (by linarith), if_neg (by linarith), neg_neg]

/-- A greater number is not rounded to a lesser single. -/
theorem nearestRank_mono {x y : ℚ} (h : x ≤ y) : nearestRank x ≤ nearestRank y := by
  rcases le_or_gt 0 x with hx | hx
  · rw [nearestRank_of_nonneg hx, nearestRank_of_nonneg (hx.trans h)]
    exact_mod_cast min_le_min_right _ (nearestCount_mono hx h)
  · rcases le_or_gt 0 y with hy | hy
    · rw [nearestRank, if_pos hx, nearestRank_of_nonneg hy]
      omega
    · rw [nearestRank, if_pos hx, nearestRank, if_pos hy, neg_le_neg_iff]
      exact_mod_cast min_le_min_right _ (nearestCount_mono (by linarith) (by linarith))

end Battlemap
