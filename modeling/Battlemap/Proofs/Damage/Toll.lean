import Battlemap.Proofs.Damage.Independence
import Battlemap.Proofs.Obtained

/-!
# `Battlemap.Proofs.Damage.Toll`: what one event takes from a level

`LevelData.LosesPoint` compares the data of a level before and after an event in whole
numbers: the integrity falls by one and stops at zero, the subtraction does not
overflow, and the level is destroyed exactly if less than the threshold is left.

On a board whose levels do not share data this holds of every level that the event
reports, however the event came to it, unless its integrity was the least 32-bit number
(`strike_takes_point`). At that number the difference wraps around before it is compared
with zero, so the level is left with the greatest integrity and stands. `rottenWall` is a
wall that is strengthened in this way by the event that should destroy it.
-/

set_option autoImplicit false

namespace Battlemap

/-- The data `e` is what is left of the data `d` when its level loses one point of
integrity. -/
structure LevelData.LosesPoint (d e : LevelData) : Prop where
  noOverflow : (d.header.integrity - 1).toInt = d.header.integrity.toInt - 1
  integrity : e.header.integrity.toInt = max (d.header.integrity.toInt - 1) 0
  destroyed : e.header.isDestroyed = true ↔
    max (d.header.integrity.toInt - 1) 0 < collapseThreshold.toInt

instance (d e : LevelData) : Decidable (d.LosesPoint e) :=
  decidable_of_iff
    ((d.header.integrity - 1).toInt = d.header.integrity.toInt - 1 ∧
      e.header.integrity.toInt = max (d.header.integrity.toInt - 1) 0 ∧
      (e.header.isDestroyed = true ↔
        max (d.header.integrity.toInt - 1) 0 < collapseThreshold.toInt))
    ⟨fun ⟨h, h', h''⟩ => ⟨h, h', h''⟩, fun h => ⟨h.1, h.2, h.3⟩⟩

/-- A number is the least one or above it. -/
theorem lt_toInt_of_ne_minValue {integrity : Int32} (h : integrity ≠ Int32.minValue) :
    Int32.minValue.toInt < integrity.toInt := by
  have hle : Int32.minValue.toInt ≤ integrity.toInt := integrity.minValue_le_toInt
  have hne : integrity.toInt ≠ Int32.minValue.toInt := fun heq => h (Int32.toInt_inj.mp heq)
  omega

namespace LevelData

variable {d : LevelData}

/-- One strike takes one point, above the least integrity. -/
theorem losesPoint_struck (hv : d.header.isVulnerable = true)
    (h : d.header.integrity ≠ Int32.minValue) : d.LosesPoint d.struck := by
  have hlow := lt_toInt_of_ne_minValue h
  have hworn := toInt_wornIntegrity hlow
  refine ⟨toInt_sub_one hlow, ?_, ?_⟩
  · simpa using hworn
  · show d.header.struck.isDestroyed = true ↔ _
    rw [LevelHeader.isDestroyed_struck hv, decide_eq_true_iff, Int32.lt_iff_toInt_lt, hworn]

/-- At the least integrity a strike leaves the greatest one. -/
theorem struck_of_minValue (hv : d.header.isVulnerable = true)
    (h : d.header.integrity = Int32.minValue) :
    d.struck.header.integrity = Int32.maxValue ∧ d.struck.header.isDestroyed = false := by
  constructor
  · simp [h, wornIntegrity_minValue]
  · show d.header.struck.isDestroyed = false
    rw [LevelHeader.isDestroyed_struck hv, h, wornIntegrity_minValue]
    decide

/-- A strike on a vulnerable level takes one point of integrity, except from the least number
there is, which has none below it. -/
theorem losesPoint_struck_iff (hv : d.header.isVulnerable = true) :
    d.LosesPoint d.struck ↔ d.header.integrity ≠ Int32.minValue := by
  constructor
  · intro hloses h
    have hzero := hloses.integrity
    rw [(struck_of_minValue hv h).1, h] at hzero
    exact absurd hzero (by decide)
  · exact losesPoint_struck hv

end LevelData

namespace Board

variable {b : Board}

/-- Take an obtained board whose levels do not share data. Every level that an event
reports has lost exactly one point, unless its integrity was the least 32-bit number;
then it has the greatest one and stands. The report says what is left. -/
theorem strike_takes_point (hb : b.Obtained) (hu : b.Unshared) (damage : Box) :
    ∃ after report, b.damage? damage = some (after, report) ∧
      ∀ k ∈ report.strikes, ∃ (i : Nat) (d e : LevelData),
        b.entryAt? k.cell k.level = some i ∧ b.data[i]? = some d ∧ after.data[i]? = some e ∧
        k.integrity = e.header.integrity ∧ k.destroyed = e.header.isDestroyed ∧
        (d.LosesPoint e ↔ d.header.integrity ≠ Int32.minValue) ∧
        (d.header.integrity = Int32.minValue →
          e.header.integrity = Int32.maxValue ∧ e.header.isDestroyed = false) := by
  obtain ⟨visits, final, houtcome⟩ := hb.consistent.exists_outcome hu damage
  refine ⟨_, _, houtcome.damage?_eq, ?_⟩
  intro k hk
  -- No level is struck twice, so its data afterwards is that of one strike.
  obtain ⟨i, d, hi, hd, hv, he, hintegrity, hdestroyed⟩ := houtcome.struck hu hk
  exact ⟨i, d, d.struck, hi, hd, he, hintegrity, hdestroyed, LevelData.losesPoint_struck_iff hv,
    LevelData.struck_of_minValue hv⟩

/-- Two walls in a row. The next strike destroys the first one, and the second one has a
negative integrity. -/
def wornRow : Board where
  grid := ⟨2, 1, .one, .zero, .zero, .one⟩
  payloadSize := 0
  tiles := #[⟨1, 0⟩, ⟨1, 1⟩]
  levels := #[wallRow.wall 0, wallRow.wall 1]
  data := #[wallRow.standing, negative]
where
  negative : LevelData := ⟨{ LevelHeader.plain with kind := .wall, integrity := -7 }, []⟩

/-- The worn row can be obtained: it is accepted as it stands. -/
theorem obtained_wornRow : wornRow.Obtained :=
  .ofParts (rfl : ofParts wornRow.grid wornRow.payloadSize wornRow.tiles wornRow.levels
    wornRow.data = .ok wornRow)

/-- The collapse of the first wall takes one point from the second, which leaves none. -/
theorem wornRow_strike_takes_point :
    ∃ after report e, wornRow.damage? firstWallBox = some (after, report) ∧
      report.strikes = #[⟨⟨0, 0⟩, 0, 0, true⟩, ⟨⟨1, 0⟩, 0, 0, true⟩] ∧
      after.data[1]? = some e ∧ wornRow.negative.LosesPoint e := by
  obtain ⟨after, report, hdamage, hstrikes⟩ :=
    strike_takes_point obtained_wornRow (DisjointRuns.unshared (by decide) (by decide)) firstWallBox
  have hboth : (wornRow.damage? firstWallBox).map (fun r => r.2.strikes)
      = some #[⟨⟨0, 0⟩, 0, 0, true⟩, ⟨⟨1, 0⟩, 0, 0, true⟩] := by decide +kernel
  rw [hdamage, Option.map_some] at hboth
  have hreport : report.strikes = #[⟨⟨0, 0⟩, 0, 0, true⟩, ⟨⟨1, 0⟩, 0, 0, true⟩] :=
    Option.some.inj hboth
  obtain ⟨i, d, e, hi, hd, he, -, -, hloses, -⟩ :=
    hstrikes ⟨⟨1, 0⟩, 0, 0, true⟩ (by simp [hreport])
  have hplace : wornRow.entryAt? ⟨1, 0⟩ 0 = some 1 := rfl
  cases hplace.symm.trans hi
  cases hd
  exact ⟨after, report, e, hdamage, hreport, he, hloses.mpr (by decide)⟩

/-- A tile with a wall of the least integrity. -/
def rottenWall : Board where
  grid := ⟨1, 1, .one, .zero, .zero, .one⟩
  payloadSize := 0
  tiles := #[⟨1, 0⟩]
  levels := #[wallRow.wall 0]
  data := #[rotten]
where
  rotten : LevelData := ⟨{ LevelHeader.plain with kind := .wall, integrity := Int32.minValue }, []⟩

/-- The one level that the event reports has gained integrity and stands. -/
theorem rottenWall_gains :
    rottenWall.Obtained ∧ rottenWall.Unshared ∧
      ∃ after report e, rottenWall.damage? firstWallBox = some (after, report) ∧
        report.strikes = #[⟨⟨0, 0⟩, 0, 2147483647, false⟩] ∧
        rottenWall.entryAt? ⟨0, 0⟩ 0 = some 0 ∧ after.data[0]? = some e ∧
        ¬ rottenWall.rotten.LosesPoint e := by
  refine ⟨.ofParts (rfl : ofParts rottenWall.grid rottenWall.payloadSize rottenWall.tiles
    rottenWall.levels rottenWall.data = .ok rottenWall),
    DisjointRuns.unshared (by decide) (by decide), ?_⟩
  have hdamage : rottenWall.damage? firstWallBox = some
      ({ rottenWall with data := #[rottenWall.rotten.struck] },
        ⟨#[⟨0, 0⟩], #[⟨⟨0, 0⟩, 0, 2147483647, false⟩]⟩) := by decide +kernel
  exact ⟨_, _, _, hdamage, rfl, rfl, rfl, by decide⟩

end Board

end Battlemap
