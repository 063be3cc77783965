import Battlemap.Proofs.Consistency
import Battlemap.Proofs.Header

/-!
# `Battlemap.Proofs.Damage.Wear`: what strikes do to gameplay data

`LevelData.WearsTo` says in one relation what strikes may have done to
the data of a level: the integrity and the destroyed flag can differ,
the flag only ever goes from clear to set, and data that strikes take
no effect on is as it was. One strike is an instance
(`wearsTo_struck`), and strikes in a row are again one
(`WearsTo.trans`), so the relation holds between the data before and
after any number of events.

`DataWearsTo` is the same for a whole array, entry by entry. A board
whose data wears stays consistent (`Consistent.worn`), because the
stored positions stay.

A strike takes one point of an integrity and stops at zero
(`toInt_wornIntegrity`), but at the least 32-bit number the difference
wraps around first (`wornIntegrity_minValue`).
-/

set_option autoImplicit false

namespace Battlemap

/-! ### Integrity -/

/-- One less than an integrity does not overflow, if the integrity is not the least
32-bit number. -/
theorem toInt_sub_one {integrity : Int32} (h : Int32.minValue.toInt < integrity.toInt) :
    (integrity - 1).toInt = integrity.toInt - 1 := by
  have hhigh := integrity.toInt_lt
  rw [show Int32.minValue.toInt = -2147483648 from rfl] at h
  rw [Int32.toInt_sub]
  exact Int.bmod_eq_of_le (by simp; omega) (by simp; omega)

/-- A strike takes one point of integrity, and leaves none where there was none. -/
theorem toInt_wornIntegrity {integrity : Int32} (h : Int32.minValue.toInt < integrity.toInt) :
    (wornIntegrity integrity).toInt = max (integrity.toInt - 1) 0 := by
  have hzero : integrity - 1 < 0 ↔ integrity.toInt - 1 < 0 := by
    rw [Int32.lt_iff_toInt_lt, toInt_sub_one h]
    rfl
  unfold wornIntegrity
  by_cases hneg : integrity.toInt - 1 < 0
  · rw [if_pos (hzero.mpr hneg), Int.max_eq_right (Int.le_of_lt hneg)]
    rfl
  · rw [if_neg (mt hzero.mp hneg), toInt_sub_one h, Int.max_eq_left (by omega)]

/-- The difference wraps around at the least number, so a strike leaves the
greatest one. -/
theorem wornIntegrity_minValue : wornIntegrity Int32.minValue = Int32.maxValue := by decide

/-! ### The destroyed flag -/

namespace LevelHeader

/-- A strike that takes effect destroys the level exactly if it leaves
less integrity than the threshold. -/
theorem isDestroyed_struck {h : LevelHeader} (hv : h.isVulnerable = true) :
    h.struck.isDestroyed = decide (wornIntegrity h.integrity < collapseThreshold) := by
  have hstands : h.isDestroyed = false := by simp_all [isVulnerable]
  unfold struck
  dsimp only
  split
  case isTrue hlow => rw [isDestroyed_setFlag, decide_eq_true hlow]
  case isFalse hhigh => rw [decide_eq_false hhigh]; exact hstands

/-- A strike leaves the worn integrity. -/
@[simp] theorem integrity_struck (h : LevelHeader) :
    h.struck.integrity = wornIntegrity h.integrity := by
  unfold struck
  dsimp only
  split <;> rfl

/-- Which levels a strike takes effect on. -/
theorem isVulnerable_iff {h : LevelHeader} :
    h.isVulnerable = true ↔ h.isDestroyed = false ∧ (h.kind = .floor ∨ h.kind = .wall) := by
  cases hk : h.kind <;> simp [isVulnerable, StructuralKind.isDamageable, hk]

/-- Strikes have no effect on data that is destroyed already, and on data
of a level that is neither a floor nor a wall. -/
theorem isVulnerable_eq_false_iff {h : LevelHeader} :
    h.isVulnerable = false ↔ h.isDestroyed = true ∨ h.kind = .world ∨ h.kind = .notStructural := by
  cases hd : h.isDestroyed <;> cases hk : h.kind <;>
    simp [isVulnerable, StructuralKind.isDamageable, hd, hk]

end LevelHeader

/-! ### Wear of one entry -/

namespace LevelData

/-- The data `d` can be `e` after some strikes. -/
structure WearsTo (d e : LevelData) : Prop where
  /-- All but the flags and the integrity is the same. -/
  same : e = { d with header.flags := e.header.flags, header.integrity := e.header.integrity }
  /-- All flags but the destroyed flag are the same. -/
  flags : e.header.flags ||| destroyedFlag = d.header.flags ||| destroyedFlag
  destroyed : d.header.isDestroyed = true → e.header.isDestroyed = true
  immune : d.header.isVulnerable = false → e = d

/-- Without damage data stays as it is. -/
theorem WearsTo.refl (d : LevelData) : d.WearsTo d := ⟨rfl, rfl, id, fun _ => rfl⟩

/-- Worn data records the position it did. -/
theorem WearsTo.position {d e : LevelData} (h : d.WearsTo e) :
    e.header.position = d.header.position := by
  rw [h.same]

/-- Worn data is selected by the masks that selected it. -/
theorem WearsTo.layerMask {d e : LevelData} (h : d.WearsTo e) :
    e.header.layerMask = d.header.layerMask := by
  rw [h.same]
  rfl

/-- What stands after some strikes stood before them. -/
theorem WearsTo.stands {d e : LevelData} (h : d.WearsTo e) (he : e.header.isDestroyed = false) :
    d.header.isDestroyed = false := by
  cases hd : d.header.isDestroyed with
  | false => rfl
  | true =>
    have hfallen := h.destroyed hd
    rw [he] at hfallen
    cases hfallen

/-- Wear adds up. -/
theorem WearsTo.trans {d e f : LevelData} (h : d.WearsTo e) (h' : e.WearsTo f) : d.WearsTo f where
  same := by rw [h'.same, h.same]
  flags := h'.flags.trans h.flags
  destroyed hd := h'.destroyed (h.destroyed hd)
  immune hd := by
    -- Immune data stays, so it is still immune for the second relation.
    have he : e = d := h.immune hd
    subst he
    exact h'.immune hd

/-- One strike wears the data that it takes effect on. -/
theorem wearsTo_struck {d : LevelData} (hv : d.header.isVulnerable = true) :
    d.WearsTo { d with header := d.header.struck } where
  same := by
    unfold LevelHeader.struck LevelHeader.setFlag
    dsimp only
    split <;> rfl
  flags := by
    unfold LevelHeader.struck LevelHeader.setFlag
    dsimp only
    split
    · simp only [if_true]
      rw [UInt32.or_assoc, UInt32.or_self]
    · rfl
  destroyed hd := by simp [LevelHeader.isVulnerable, hd] at hv
  immune hd := by simp [hd] at hv

end LevelData

/-! ### Wear of an array -/

/-- The entries of `after` are those of `before`, each worn. -/
structure DataWearsTo (before after : Array LevelData) : Prop where
  size : after.size = before.size
  entry : ∀ (i : Nat) (d : LevelData), before[i]? = some d →
    ∃ e : LevelData, after[i]? = some e ∧ d.WearsTo e

namespace DataWearsTo

/-- An array of data wears to itself. -/
theorem refl (data : Array LevelData) : DataWearsTo data data where
  size := rfl
  entry _ d hd := ⟨d, hd, .refl d⟩

/-- The wear of an array adds up. -/
theorem trans {first second third : Array LevelData} (h : DataWearsTo first second)
    (h' : DataWearsTo second third) : DataWearsTo first third where
  size := h'.size.trans h.size
  entry i d hd := by
    obtain ⟨e, he, hwear⟩ := h.entry i d hd
    obtain ⟨f, hf, hwear'⟩ := h'.entry i e he
    exact ⟨f, hf, hwear.trans hwear'⟩

/-- Every entry of a worn array comes from one before. -/
theorem exists_before {before after : Array LevelData} (h : DataWearsTo before after) {i : Nat}
    {e : LevelData} (he : after[i]? = some e) :
    ∃ d : LevelData, before[i]? = some d ∧ d.WearsTo e := by
  have hi : i < before.size := h.size ▸ (Array.getElem?_eq_some_iff.mp he).1
  have hd := Array.getElem?_eq_getElem hi
  obtain ⟨e', he', hwear⟩ := h.entry i _ hd
  rw [he] at he'
  cases he'
  exact ⟨_, hd, hwear⟩

/-- Striking one entry wears the array. -/
theorem modify {data : Array LevelData} {i : Nat} {d : LevelData} (hd : data[i]? = some d)
    (hv : d.header.isVulnerable = true) :
    DataWearsTo data (data.modify i fun e => { e with header := d.header.struck }) where
  size := Array.size_modify
  entry j e he := by
    rw [Array.getElem?_modify]
    split
    case isTrue hij =>
      subst hij
      rw [hd] at he
      cases he
      rw [hd]
      exact ⟨_, rfl, LevelData.wearsTo_struck hv⟩
    case isFalse => exact ⟨e, he, .refl e⟩

end DataWearsTo

/-- A board whose data wears stays consistent. -/
theorem Board.Consistent.worn {b : Board} (hb : b.Consistent) {data : Array LevelData}
    (h : DataWearsTo b.data data) : Board.Consistent { b with data := data } :=
  hb.withData fun i d hd =>
    let ⟨e, he, hwear⟩ := h.entry i d hd
    ⟨e, he, hwear.position⟩

end Battlemap
