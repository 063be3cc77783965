import Battlemap.Proofs.Damage.Independence

/-!
# `Battlemap.Proofs.Damage.Lifetime`: how many strikes a level takes

`Board.damageLog?` applies events one after the other and keeps their reports. On a
board whose levels do not share data an event strikes a level once or not at all, and
the report says which (`Board.Outcome.strike_cases`). A level that stands with an
integrity of `k` or more than zero then falls with the strike that makes their number
`max (k - 1) 1`, and no event strikes it again.

`LevelData.WornBy` is the invariant: it relates the data of the level at the start, the
strikes in the log so far and the data after them. One strike keeps it
(`LevelData.WornBy.strike`), so any number of events does
(`Board.Consistent.exists_damageLog`).
-/

set_option autoImplicit false

namespace Battlemap

/-! ### One strike after the other -/

/-- The number of strikes that a level with this integrity takes. -/
def strikeLimit (integrity : Int32) : Int := max (integrity.toInt - 1) 1

/-- The data `e` of a level is what a log of strikes leaves of the data `d`. -/
structure LevelData.WornBy (d : LevelData) (log : List Strike) (e : LevelData) : Prop where
  bounded : log.length ≤ strikeLimit d.header.integrity
  standing : log.length < strikeLimit d.header.integrity → e.header.isDestroyed = false ∧
    e.header.integrity.toInt = d.header.integrity.toInt - log.length ∧
    log.countP Strike.destroyed = 0
  fallen : log.length = strikeLimit d.header.integrity → e.header.isDestroyed = true ∧
    log.countP Strike.destroyed = 1

namespace LevelData.WornBy

variable {d e : LevelData} {log : List Strike}

/-- A level that stands was not struck yet. -/
theorem start (hstands : d.header.isDestroyed = false) : d.WornBy [] d where
  bounded := by simp [strikeLimit]
  standing _ := by simp [hstands]
  fallen h := by
    have hpos : 1 ≤ strikeLimit d.header.integrity := le_max_right _ _
    rw [← h] at hpos
    exact absurd hpos (by decide)

/-- One more strike on a level that it takes effect on. -/
theorem strike (h : d.WornBy log e) (hintegrity : 0 ≤ d.header.integrity.toInt)
    (hv : e.header.isVulnerable = true) {k : Strike}
    (hk : k.destroyed = e.struck.header.isDestroyed) : d.WornBy (log ++ [k]) e.struck := by
  have hstands : e.header.isDestroyed = false := (LevelHeader.isVulnerable_iff.mp hv).1
  have hfew : log.length < strikeLimit d.header.integrity := by
    refine lt_of_le_of_ne h.bounded fun hlast => ?_
    rw [(h.fallen hlast).1] at hstands
    cases hstands
  obtain ⟨-, hleft, hnone⟩ := h.standing hfew
  have hlength : ((log ++ [k]).length : Int) = log.length + 1 := by simp
  have hcount : (log ++ [k]).countP Strike.destroyed
      = if e.struck.header.isDestroyed then 1 else 0 := by
    rw [List.countP_append, hnone, ← hk, List.countP_singleton, Nat.zero_add]
  have hworn : e.struck.header.integrity.toInt
      = max (d.header.integrity.toInt - (log.length + 1)) 0 := by
    rw [LevelData.header_struck, LevelHeader.integrity_struck, toInt_wornIntegrity, hleft]
    · rw [Int.sub_sub]
    · show (-2147483648 : Int) < _
      unfold strikeLimit at hfew
      omega
  have hfalls : e.struck.header.isDestroyed
      = decide (d.header.integrity.toInt - (log.length + 1) < 2) := by
    rw [LevelData.header_struck, LevelHeader.isDestroyed_struck hv, ← LevelHeader.integrity_struck,
      ← LevelData.header_struck, decide_eq_decide, Int32.lt_iff_toInt_lt, hworn]
    show _ < (2 : Int) ↔ _
    omega
  -- With the strike that reaches the limit, less than two points are left.
  refine ⟨?_, fun hmore => ?_, fun hlast => ?_⟩
  · rw [hlength]
    exact hfew
  · rw [hlength] at hmore ⊢
    unfold strikeLimit at hmore
    have hstill : e.struck.header.isDestroyed = false := by
      rw [hfalls]
      exact decide_eq_false (by omega)
    refine ⟨hstill, ?_, ?_⟩
    · rw [hworn]
      omega
    · rw [hcount, hstill]
      rfl
  · rw [hlength] at hlast
    unfold strikeLimit at hlast
    have hnow : e.struck.header.isDestroyed = true := by
      rw [hfalls]
      exact decide_eq_true (by omega)
    exact ⟨hnow, by rw [hcount, hnow]; rfl⟩

end LevelData.WornBy

/-! ### One event after the other -/

/-- The strikes of a report on the level at a position of a tile. -/
def DamageReport.strikesAt (r : DamageReport) (c : Cell) (position : Nat) : List Strike :=
  r.strikes.toList.filter fun k => decide (k.cell = c ∧ k.level = position)

namespace Board

/-- Apply damage events in order and keep their reports. -/
def damageLog? (b : Board) : List Box → Option (Board × List DamageReport)
  | [] => some (b, [])
  | damage :: events => do
    let (next, report) ← b.damage? damage
    let (after, reports) ← next.damageLog? events
    return (after, report :: reports)

variable {b : Board}

/-- An event either does not strike a level, and leaves its data alone, or strikes it
once. -/
theorem Outcome.strike_cases (hu : b.Unshared) {damage : Box} {visits : List Visit}
    {final : Cascade} (h : b.Outcome damage visits final) {c : Cell} {position i : Nat}
    {d : LevelData} (hi : b.entryAt? c position = some i) (hd : b.data[i]? = some d) :
    let strikes := DamageReport.strikesAt ⟨final.visited, final.strikes⟩ c position
    (strikes = [] ∧ final.data[i]? = some d) ∨
      ∃ k, strikes = [k] ∧ d.header.isVulnerable = true ∧
        k.destroyed = d.struck.header.isDestroyed ∧ final.data[i]? = some d.struck := by
  have hmem : ∀ k, k ∈ DamageReport.strikesAt ⟨final.visited, final.strikes⟩ c position ↔
      k ∈ final.strikes.toList ∧ k.cell = c ∧ k.level = position := by
    intro k
    simp [DamageReport.strikesAt]
  have honce : (DamageReport.strikesAt ⟨final.visited, final.strikes⟩ c position).Pairwise
      fun j k => ¬(j.cell = k.cell ∧ j.level = k.level) := h.tally.once.filter _
  dsimp only
  cases hstrikes : DamageReport.strikesAt ⟨final.visited, final.strikes⟩ c position with
  | nil =>
    refine Or.inl ⟨rfl, (h.tally.data_of_not_struck fun k hk hplace => ?_).trans hd⟩
    -- A strike on this data would be one at this position, since levels do not share data.
    have hnone := (hmem k).mpr ⟨Array.mem_toList_iff.mpr hk, hu _ _ _ _ i hplace hi⟩
    rw [hstrikes] at hnone
    cases hnone
  | cons k rest =>
    rw [hstrikes] at hmem honce
    obtain ⟨hk, hcell, hlevel⟩ := (hmem k).mp (by simp)
    -- A second strike at the position would name the same level again.
    have hrest : rest = [] := by
      refine List.eq_nil_iff_forall_not_mem.mpr fun k' hk' => ?_
      obtain ⟨-, hcell', hlevel'⟩ := (hmem k').mp (by simp [hk'])
      exact List.rel_of_pairwise_cons honce hk'
        ⟨hcell.trans hcell'.symm, hlevel.trans hlevel'.symm⟩
    obtain ⟨i', d', hi', hd', hv, hafter, -, hdestroyed⟩ :=
      h.struck hu (Array.mem_toList_iff.mp hk)
    rw [hcell, hlevel, hi] at hi'
    cases hi'
    cases hd.symm.trans hd'
    exact Or.inr ⟨k, by rw [hrest], hv, hdestroyed, hafter⟩

/-- Any number of events keep the relation between the data of a level and the strikes
on it. -/
theorem Consistent.exists_damageLog (hb : b.Consistent) (hu : b.Unshared) {c : Cell}
    {position i : Nat} (hi : b.entryAt? c position = some i) {d e : LevelData}
    (hintegrity : 0 ≤ d.header.integrity.toInt) {log : List Strike} (hworn : d.WornBy log e)
    (he : b.data[i]? = some e) (events : List Box) :
    ∃ after reports e', b.damageLog? events = some (after, reports) ∧
      after.data[i]? = some e' ∧
      d.WornBy (log ++ reports.flatMap fun report => report.strikesAt c position) e' := by
  induction events generalizing b log e with
  | nil => exact ⟨b, [], e, rfl, he, by simpa using hworn⟩
  | cons damage events ih =>
    obtain ⟨visits, final, h⟩ := hb.exists_outcome hu damage
    -- The first event takes the level at most one strike further.
    obtain ⟨next, hnext, hworn'⟩ : ∃ next, final.data[i]? = some next ∧
        d.WornBy (log ++ DamageReport.strikesAt ⟨final.visited, final.strikes⟩ c position)
          next := by
      rcases h.strike_cases hu hi he with ⟨hnone, hsame⟩ | ⟨k, hone, hv, hk, hstruck⟩
      · exact ⟨e, hsame, by rw [hnone, List.append_nil]; exact hworn⟩
      · exact ⟨e.struck, hstruck, by rw [hone]; exact hworn.strike hintegrity hv hk⟩
    obtain ⟨after, reports, e', hlog, he', hworn''⟩ :=
      ih (b := { b with data := final.data }) (hb.worn h.wear) hu hi hworn' hnext
    refine ⟨after, ⟨final.visited, final.strikes⟩ :: reports, e', ?_, he', ?_⟩
    · rw [damageLog?, h.damage?_eq]
      simp [hlog]
    · rw [List.flatMap_cons, ← List.append_assoc]
      exact hworn''

/-- On a board whose levels do not share data, take a level that stands with an
integrity that is not negative. Whatever the events, the level is in their reports no
more than `max (k - 1) 1` times, where `k` is its integrity, and is reported destroyed
at most once. With fewer reports it stands, each of them having taken one point, and
with the last one it is destroyed. -/
theorem wear_bounded {grid : Grid} {payloadSize : UInt32} {tiles : Array Tile}
    {levels : Array Level} {data : Array LevelData}
    (hparts : ofParts grid payloadSize tiles levels data = .ok b) (hu : b.Unshared) {c : Cell}
    {position i : Nat} {d : LevelData} (hi : b.entryAt? c position = some i)
    (hd : b.data[i]? = some d) (hstands : d.header.isDestroyed = false)
    (hintegrity : 0 ≤ d.header.integrity) (events : List Box) :
    ∃ after reports e, b.damageLog? events = some (after, reports) ∧
      after.data[i]? = some e ∧
      let strikes := reports.flatMap fun report => report.strikesAt c position
      let limit := max (d.header.integrity.toInt - 1) 1
      strikes.length ≤ limit ∧ strikes.countP Strike.destroyed ≤ 1 ∧
      (strikes.length < limit → e.header.isDestroyed = false ∧
        e.header.integrity.toInt = d.header.integrity.toInt - strikes.length) ∧
      (strikes.length = limit → e.header.isDestroyed = true) := by
  have hb := Consistent.of_ofParts hparts
  obtain ⟨after, reports, e, hlog, he, hworn⟩ := hb.exists_damageLog hu hi
    (Int32.le_iff_toInt_le.mp hintegrity) (LevelData.WornBy.start hstands) hd events
  rw [List.nil_append] at hworn
  refine ⟨after, reports, e, hlog, he, hworn.bounded, ?_, fun hmore => ?_, fun hlast =>
    (hworn.fallen hlast).1⟩
  · rcases lt_or_eq_of_le hworn.bounded with hmore | hlast
    · rw [(hworn.standing hmore).2.2]
      exact Nat.zero_le 1
    · exact Nat.le_of_eq (hworn.fallen hlast).2
  · exact ⟨(hworn.standing hmore).1, (hworn.standing hmore).2.1⟩

/-- A tile with a wall of integrity three. -/
def thickWall : Board where
  grid := ⟨1, 1, .one, .zero, .zero, .one⟩
  payloadSize := 0
  tiles := #[⟨1, 0⟩]
  levels := #[wallRow.wall 0]
  data := #[⟨{ LevelHeader.plain with kind := .wall, integrity := 3 }, []⟩]

/-- The thick wall is a board that is accepted. -/
theorem ofParts_thickWall : ofParts thickWall.grid thickWall.payloadSize thickWall.tiles
    thickWall.levels thickWall.data = .ok thickWall := rfl

/-- The second of three events destroys the wall, and the third one leaves it alone. -/
theorem thickWall_wear_bounded :
    ∃ after reports e, thickWall.damageLog? [firstWallBox, firstWallBox, firstWallBox]
        = some (after, reports) ∧
      after.data[0]? = some e ∧
      (reports.map fun report => (report.strikesAt ⟨0, 0⟩ 0).length) = [1, 1, 0] ∧
      (reports.flatMap fun report => report.strikesAt ⟨0, 0⟩ 0).countP Strike.destroyed ≤ 1 ∧
      e.header.isDestroyed = true := by
  have hentry : thickWall.entryAt? ⟨0, 0⟩ 0 = some 0 := rfl
  obtain ⟨after, reports, e, hlog, he, -, honce, -, hlast⟩ :=
    wear_bounded ofParts_thickWall (DisjointRuns.unshared (by decide) (by decide)) hentry rfl
      (by decide) (by decide) [firstWallBox, firstWallBox, firstWallBox]
  have hlengths : (thickWall.damageLog? [firstWallBox, firstWallBox, firstWallBox]).map
      (fun r => r.2.map fun report => (report.strikesAt ⟨0, 0⟩ 0).length) = some [1, 1, 0] := by
    decide +kernel
  rw [hlog, Option.map_some, Option.some.injEq] at hlengths
  refine ⟨after, reports, e, hlog, he, hlengths, honce, hlast ?_⟩
  rw [List.length_flatMap, hlengths]
  rfl

end Board

end Battlemap
