import Battlemap.Number.Integral
import Battlemap.Proofs.Number.Error

/-!
# `Battlemap.Proofs.Number.SignedZero`: the sign of a zero in differences and quotients

Two singles are `Alike` if they are one pattern or stand for one number. In the second case
they are one pattern too, unless both are zeros (`Alike.unpacked`), so nothing but the sign
of a zero can tell them apart. A difference turns zeros of two signs into alike results. A
quotient does too, except that division by zeros of two signs may end in the two infinities
(`zeroAlike_div`). Cut to whole numbers, the results are one integer or the two ends of the
range (`toInt_round_quotient`).
-/

set_option autoImplicit false

namespace Battlemap

open Float.Model Float.Model.UnpackedFloat

/-- Two unpacked numbers differ in the sign of a zero at most. -/
def ZeroAlike (f g : UnpackedFloat) : Prop := f = g ∨ ∃ s t : Sign, f = .zero s ∧ g = .zero t

/-- Differences to zeros of two signs are zeros, or the same. -/
theorem zeroAlike_sub (f : UnpackedFloat) {g g' : UnpackedFloat} (h : ZeroAlike g g') :
    ZeroAlike (UnpackedFloat.sub Format.binary32 f g)
      (UnpackedFloat.sub Format.binary32 f g') := by
  rcases h with rfl | ⟨s, t, rfl, rfl⟩
  · exact .inl rfl
  · cases f with
    | zero r => cases r <;> cases s <;> cases t <;> exact .inr ⟨_, _, rfl, rfl⟩
    | finite => exact .inl rfl
    | infinity => exact .inl rfl
    | notANumber => exact .inl rfl

/-- Quotients of numbers that differ in the signs of zeros do so too, or are infinite. -/
theorem zeroAlike_div {f f' g g' : UnpackedFloat} (hf : ZeroAlike f f') (hg : ZeroAlike g g') :
    ZeroAlike (UnpackedFloat.div Format.binary32 f g) (UnpackedFloat.div Format.binary32 f' g') ∨
      ∃ s t : Sign, UnpackedFloat.div Format.binary32 f g = .infinity s ∧
        UnpackedFloat.div Format.binary32 f' g' = .infinity t := by
  rcases hg with rfl | ⟨s, t, rfl, rfl⟩
  · rcases hf with rfl | ⟨s, t, rfl, rfl⟩
    · exact .inl (.inl rfl)
    · cases g with
      | zero => exact .inl (.inl rfl)
      | finite => exact .inl (.inr ⟨_, _, rfl, rfl⟩)
      | infinity => exact .inl (.inr ⟨_, _, rfl, rfl⟩)
      | notANumber => exact .inl (.inl rfl)
  · rcases hf with rfl | ⟨r, u, rfl, rfl⟩
    · cases f with
      | zero => exact .inl (.inl rfl)
      | finite => exact .inr ⟨_, _, rfl, rfl⟩
      | infinity => exact .inr ⟨_, _, rfl, rfl⟩
      | notANumber => exact .inl (.inl rfl)
    · exact .inl (.inl rfl)

namespace Single

/-- The same pattern, or patterns of the same number. -/
def Alike (a b : Single) : Prop := a = b ∨ a.sameNumber b = true

variable {a b : Single}

/-- A number of rank zero is a zero of its sign. -/
theorem unpacked_of_rank_eq_zero (h : a.rank = 0) : a.unpacked = .zero a.sign := by
  have hfinite : a.isFinite = true := by
    rw [isFinite_iff_abs_rank_lt, h]
    decide
  rw [unpacked_of_isFinite hfinite, dif_pos (significand_eq_zero_of_rank h)]

/-- Singles that are alike are equal or two zeros. -/
theorem Alike.unpacked (h : a.Alike b) : ZeroAlike a.unpacked b.unpacked := by
  rcases h with rfl | h
  · exact .inl rfl
  · simp only [sameNumber, Bool.and_eq_true, Bool.not_eq_true', beq_iff_eq] at h
    have hrank : a.rank = b.rank := h.2
    by_cases hzero : a.rank = 0
    · exact .inr ⟨_, _, unpacked_of_rank_eq_zero hzero,
        unpacked_of_rank_eq_zero (hrank.symm.trans hzero)⟩
    · -- A rank other than zero tells the sign and the magnitude.
      rw [rank_eq_apply_sign] at hzero
      rw [rank_eq_apply_sign, rank_eq_apply_sign] at hrank
      have hsame : b.sign = a.sign ∧ b.magnitude.toNat = a.magnitude.toNat := by
        revert hrank hzero
        cases a.sign <;> cases b.sign <;> simp [Sign.apply] <;> omega
      exact .inl (congrArg Single.unpacked (ext_of_has ⟨rfl, rfl⟩ ⟨hsame.1, hsame.2⟩))

/-- A zero keeps its sign when it is packed. -/
theorem unpacked_ofUnpacked_zero (s : Sign) : (ofUnpacked (.zero s)).unpacked = .zero s := by
  cases s <;> rfl

/-- Taking alike singles away leaves alike results. -/
theorem zeroAlike_unpacked_sub (a : Single) {b b' : Single} (h : b.Alike b') :
    ZeroAlike (a - b).unpacked (a - b').unpacked := by
  rw [sub_eq, sub_eq]
  rcases zeroAlike_sub a.unpacked h.unpacked with heq | ⟨s, t, hs, ht⟩
  · exact .inl (by rw [heq])
  · exact .inr ⟨s, t, by rw [hs, unpacked_ofUnpacked_zero], by rw [ht, unpacked_ofUnpacked_zero]⟩

/-- Cut to a whole number, a zero of either sign is zero. -/
theorem toInt_round_zero (s : Sign) : (ofUnpacked (.zero s)).round.toInt64.toInt = 0 := by
  cases s <;> decide +kernel

/-- Cut to a whole number, an infinity is at an end of the range. -/
theorem toInt_round_infinity (s : Sign) :
    (ofUnpacked (.infinity s)).round.toInt64.toInt = Int64.minValue.toInt ∨
      (ofUnpacked (.infinity s)).round.toInt64.toInt = Int64.maxValue.toInt := by
  cases s with
  | positive => exact .inr (by decide +kernel)
  | negative => exact .inl (by decide +kernel)

/-- A whole number is at an end of the range of 64-bit integers. -/
def AtEnd (n : Int) : Prop := n = Int64.minValue.toInt ∨ n = Int64.maxValue.toInt

/-- The whole number of steps from one place to another is the same for alike places and
steps, or at the ends of the range for both. -/
theorem toInt_round_quotient (a : Single) {b b' : Single} (hb : b.Alike b') {c c' : Single}
    (hc : c.Alike c') :
    ((a - b) / c).round.toInt64.toInt = ((a - b') / c').round.toInt64.toInt ∨
      AtEnd ((a - b) / c).round.toInt64.toInt ∧ AtEnd ((a - b') / c').round.toInt64.toInt := by
  rw [div_eq, div_eq]
  rcases zeroAlike_div (zeroAlike_unpacked_sub a hb) hc.unpacked with
    (heq | ⟨s, t, hs, ht⟩) | ⟨s, t, hs, ht⟩
  · exact .inl (by rw [heq])
  · exact .inl (by rw [hs, ht, toInt_round_zero, toInt_round_zero])
  · rw [hs, ht]
    exact .inr ⟨toInt_round_infinity s, toInt_round_infinity t⟩

end Single

end Battlemap
