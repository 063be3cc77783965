import Mathlib.Algebra.Group.Int.Defs
import Mathlib.Logic.Basic

/-!
# `Battlemap.Proofs.Number.Word`: signed words and the integers

The number behind or before a word wraps around at the ends of the type. `word?` is the word
of an integer where there is one, and away from the ends the step to the next word is one on
the integers (`toInt_pred`, `toInt_succ`).
-/

set_option autoImplicit false

namespace Battlemap

/-- The signed word of an integer, if there is one. -/
def word? (n : ℤ) : Option Int64 :=
  if Int64.minValue.toInt ≤ n ∧ n ≤ Int64.maxValue.toInt then some (.ofInt n) else none

/-- Every word but the greatest one has a next one. -/
theorem word?_add_one (w : Int64) :
    word? (w.toInt + 1) = if w = Int64.maxValue then none else some (w + 1) := by
  have hlow := w.le_toInt
  have hmin : Int64.minValue.toInt = -2 ^ 63 := rfl
  have hmax : Int64.maxValue.toInt = 2 ^ 63 - 1 := rfl
  have hword : w = Int64.maxValue ↔ ¬ w.toInt + 1 ≤ Int64.maxValue.toInt := by
    have hhigh := w.toInt_le
    rw [← Int64.toInt_inj]
    omega
  rw [word?, Int64.ofInt_add, Int64.ofInt_toInt]
  by_cases h : w = Int64.maxValue
  · rw [if_pos h, if_neg fun hboth => hword.mp h hboth.2]
  · rw [if_neg h, if_pos ⟨by omega, not_not.mp fun hover => h (hword.mpr hover)⟩]
    rfl

/-- Every word but the least one has one before it. -/
theorem word?_sub_one (w : Int64) :
    word? (w.toInt - 1) = if w = Int64.minValue then none else some (w - 1) := by
  have hhigh := w.toInt_le
  have hmin : Int64.minValue.toInt = -2 ^ 63 := rfl
  have hmax : Int64.maxValue.toInt = 2 ^ 63 - 1 := rfl
  have hword : w = Int64.minValue ↔ ¬ Int64.minValue.toInt ≤ w.toInt - 1 := by
    have hlow := w.le_toInt
    rw [← Int64.toInt_inj]
    omega
  rw [word?, Int64.ofInt_sub, Int64.ofInt_toInt]
  by_cases h : w = Int64.minValue
  · rw [if_pos h, if_neg fun hboth => hword.mp h hboth.1]
  · rw [if_neg h, if_pos ⟨not_not.mp fun hunder => h (hword.mpr hunder), by omega⟩]
    rfl

/-- Above the least word there is one less. -/
theorem toInt_pred {w : Int64} (h : w ≠ Int64.minValue) : (w - 1).toInt = w.toInt - 1 := by
  have hlow := w.le_toInt
  have hhigh := w.toInt_lt
  have hne : w.toInt ≠ -2 ^ 63 := fun hmin => h (Int64.toInt_inj.mp hmin)
  rw [Int64.toInt_sub]
  exact Int.bmod_eq_of_le (by simp; omega) (by simp; omega)

/-- Below the greatest word there is one more. -/
theorem toInt_succ {w : Int64} (h : w ≠ Int64.maxValue) : (w + 1).toInt = w.toInt + 1 := by
  have hlow := w.le_toInt
  have hhigh := w.toInt_lt
  have hne : w.toInt ≠ 2 ^ 63 - 1 := fun hmax => h (Int64.toInt_inj.mp hmax)
  rw [Int64.toInt_add]
  exact Int.bmod_eq_of_le (by simp; omega) (by simp; omega)

/-- A signed word that fits into 32 bits is kept there. -/
theorem toNat_toUInt32_toUInt64 {w : Int64} (h : 0 ≤ w.toInt) (hlt : w.toInt < 2 ^ 32) :
    (w.toUInt64.toUInt32.toNat : ℤ) = w.toInt := by
  have hcond : w.toInt = _ := BitVec.toInt_eq_toNat_cond w.toBitVec
  have hmod : w.toUInt64.toUInt32.toNat = w.toBitVec.toNat % 2 ^ 32 :=
    UInt64.toNat_toUInt32 w.toUInt64
  have hlt' := w.toBitVec.isLt
  rw [hmod]
  split at hcond <;> omega

end Battlemap
