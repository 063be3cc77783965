import Battlemap.Level.Header

/-!
# `Battlemap.Proofs.Header`: flags and payloads

A flag that was set or cleared reads as it was left
(`LevelHeader.hasFlag_setFlag_self`), and setting or clearing it leaves every flag
without a bit in common alone (`LevelHeader.hasFlag_setFlag_of_disjoint`). The four
flags of a level have one bit each, so they can be set in any order.

A payload that was cut or filled has the length asked for.
-/

set_option autoImplicit false

namespace Battlemap

namespace LevelHeader

/-- A flag that was set or cleared reads as it was left. -/
@[simp] theorem hasFlag_setFlag_self (h : LevelHeader) {flag : UInt32} (hflag : flag ≠ 0)
    (enabled : Bool) : (h.setFlag flag enabled).hasFlag flag = enabled := by
  cases enabled with
  | false =>
    have hclear : h.flags &&& ~~~flag &&& flag = 0 := by
      rw [← UInt32.toBitVec_inj]
      ext i
      simp
    simp [hasFlag, setFlag, hclear]
  | true =>
    have hset : (h.flags ||| flag) &&& flag = flag := by
      rw [← UInt32.toBitVec_inj]
      ext i
      simpa using fun h => Or.inr h
    simp [hasFlag, setFlag, hset, hflag]

/-- Setting or clearing a flag leaves all bits alone that it does not have. -/
theorem flags_setFlag_and (h : LevelHeader) {flag other : UInt32} (hdisjoint : flag &&& other = 0)
    (enabled : Bool) : (h.setFlag flag enabled).flags &&& other = h.flags &&& other := by
  have hbit (i : Nat) (hi : i < 32) (hother : other.toBitVec[i] = true) :
      flag.toBitVec[i] = false := by
    have hand : (flag &&& other).toBitVec[i] = false := by
      rw [hdisjoint]
      simp
    simpa [hother] using hand
  -- Where `other` has a bit, `flag` has none, so the bit of the header stays.
  rw [← UInt32.toBitVec_inj]
  ext i hi
  by_cases hother : other.toBitVec[i] = true
  · cases enabled <;> simp [setFlag, hbit i hi hother]
  · simp [hother]

/-- Setting or clearing a flag leaves the other ones alone. -/
@[simp] theorem hasFlag_setFlag_of_disjoint (h : LevelHeader) {flag other : UInt32}
    (hdisjoint : flag &&& other = 0) (enabled : Bool) :
    (h.setFlag flag enabled).hasFlag other = h.hasFlag other := by
  rw [hasFlag, hasFlag, h.flags_setFlag_and hdisjoint]

/-- A level with the flag for destroyed levels is destroyed. -/
theorem isDestroyed_setFlag (h : LevelHeader) :
    (h.setFlag destroyedFlag true).isDestroyed = true :=
  h.hasFlag_setFlag_self (by decide) true

end LevelHeader

/-- A resized payload has the given size. -/
theorem length_resizedPayload (payload : List UInt8) (size : Nat) :
    (resizedPayload payload size).length = size := by
  rw [resizedPayload, List.length_append, List.length_take, List.length_replicate]
  omega

/-- A payload that has the size already stays as it is. -/
theorem resizedPayload_of_length {payload : List UInt8} {size : Nat} (h : payload.length = size) :
    resizedPayload payload size = payload := by
  subst h
  simp [resizedPayload]

end Battlemap
