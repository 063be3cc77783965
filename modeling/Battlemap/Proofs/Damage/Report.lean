import Battlemap.Board.Statistics
import Battlemap.Proofs.Damage.Effect
import Battlemap.Proofs.Damage.Spread

/-!
# `Battlemap.Proofs.Damage.Report`: the report of an event is what happened

On a board with disjoint runs whose level records name different data, the report of
an event and the data after it tell the same story (`Board.report_agrees`): the report
names no level twice, the data that changed is that of the levels it names, each with
the integrity and the destruction that the report says, and the board counts as many
destroyed levels more as the report.

Data that takes a strike never stays as it was (`LevelData.struck_ne`). The count goes
over the strikes one by one: each strikes the data of one level record and no other
(`Board.destroyedLevels_modify`).
-/

set_option autoImplicit false

namespace Battlemap

/-- A strike that takes effect changes the data. -/
theorem LevelData.struck_ne {d : LevelData} (hv : d.header.isVulnerable = true) :
    d.struck ≠ d := by
  intro hsame
  have hheader : d.header.struck = d.header := by rw [← LevelData.header_struck, hsame]
  have hintegrity : wornIntegrity d.header.integrity = d.header.integrity := by
    rw [← LevelHeader.integrity_struck, hheader]
  have hdestroyed : decide (wornIntegrity d.header.integrity < collapseThreshold) = false := by
    rw [← LevelHeader.isDestroyed_struck hv, hheader]
    exact (LevelHeader.isVulnerable_iff.mp hv).1
  have hhigh : ¬ wornIntegrity d.header.integrity < collapseThreshold :=
    of_decide_eq_false hdestroyed
  unfold wornIntegrity at hintegrity hhigh
  dsimp only at hintegrity hhigh
  split at hintegrity
  case isTrue hneg =>
    -- What is cut off at zero is below the threshold.
    rw [if_pos hneg] at hhigh
    exact hhigh (by decide)
  case isFalse =>
    have hone : (1 : Int32) = 0 := by
      rw [← Int32.sub_right_inj d.header.integrity, hintegrity, Int32.sub_zero]
    exact absurd hone (by decide)

/-- A strike changes no flag but the one for destroyed levels. -/
theorem LevelHeader.hasFlag_struck (h : LevelHeader) {flag : UInt32}
    (hflag : destroyedFlag &&& flag = 0) : h.struck.hasFlag flag = h.hasFlag flag := by
  unfold struck
  dsimp only
  split
  · rw [hasFlag_setFlag_of_disjoint _ hflag]
    rfl
  · rfl

/-- If one element of a list comes to satisfy a predicate or does not, and the others
stay as they were, the count changes by that element. -/
theorem countP_eq_add {α : Type} {l : List α} {p q : α → Bool} {j : Nat} {a : α}
    (hj : l[j]? = some a) (hp : p a = false)
    (hsame : ∀ (i : Nat) (x : α), l[i]? = some x → i ≠ j → q x = p x) :
    l.countP q = l.countP p + if q a then 1 else 0 := by
  induction l generalizing j with
  | nil => cases hj
  | cons x l ih =>
    cases j with
    | zero =>
      cases hj
      -- The element is the head, so nothing changes in the tail.
      have htail : l.countP q = l.countP p := by
        refine List.countP_congr fun y hy => ?_
        obtain ⟨i, hi⟩ := List.mem_iff_getElem?.mp hy
        rw [hsame (i + 1) y hi (Nat.succ_ne_zero i)]
      rw [List.countP_cons, List.countP_cons, htail, hp]
      simp
    | succ j =>
      -- The element is in the tail, so the head counts as before.
      have hhead : q x = p x := hsame 0 x rfl (Nat.succ_ne_zero j).symm
      have htail := ih hj fun i y hi hne => hsame (i + 1) y hi (by omega)
      rw [List.countP_cons, List.countP_cons, htail, hhead]
      omega

/-- Whether the data of the level has a flag. -/
def Level.hasFlagIn (l : Level) (data : Array LevelData) (flag : UInt32) : Bool :=
  data[l.dataIndex.toNat]?.any fun d => d.header.hasFlag flag

namespace Board

variable {b : Board}

/-- The levels with a flag are counted level by level. -/
theorem levelsWith_eq (b : Board) (flag : UInt32) :
    b.levelsWith flag = b.levels.toList.countP fun level => level.hasFlagIn b.data flag := by
  rw [levelsWith, ← Array.countP_toList]
  refine List.countP_congr fun level _ => ?_
  rw [Level.hasFlagIn]
  cases b.data[level.dataIndex.toNat]? <;> rfl

/-- Striking the data of a standing level counts that level, if it is destroyed. -/
theorem destroyedLevels_modify (hdistinct : b.DistinctData) {data : Array LevelData} {j : Nat}
    {level : Level} {d : LevelData} (hl : b.levels[j]? = some level)
    (hd : data[level.dataIndex.toNat]? = some d) (hstands : d.header.isDestroyed = false) :
    levelsWith { b with data := data.modify level.dataIndex.toNat LevelData.struck } destroyedFlag
      = levelsWith { b with data := data } destroyedFlag
        + if d.struck.header.isDestroyed then 1 else 0 := by
  have hself : level.hasFlagIn (data.modify level.dataIndex.toNat LevelData.struck) destroyedFlag
      = d.struck.header.isDestroyed := by
    rw [Level.hasFlagIn, Array.getElem?_modify, if_pos rfl, hd]
    rfl
  rw [levelsWith_eq, levelsWith_eq, ← hself]
  -- No other level record names the data that is struck.
  refine countP_eq_add (j := j) (a := level) ?_ ?_ fun i m hm hij => ?_
  · rw [Array.getElem?_toList]
    exact hl
  · rw [Level.hasFlagIn, hd]
    exact hstands
  · have hother : level.dataIndex.toNat ≠ m.dataIndex.toNat := by
      intro hsame
      rw [Array.getElem?_toList] at hm
      exact hij (hdistinct i j m level hm hl (UInt32.toNat_inj.mp hsame.symm))
    rw [Level.hasFlagIn, Array.getElem?_modify, if_neg hother, Level.hasFlagIn]

/-- Strikes at different places count the levels that they destroy. -/
theorem destroyedLevels_strikeAll (hdistinct : b.DistinctData) {strikes : List Strike} :
    ∀ {data : Array LevelData}, (b.placesOf strikes).Nodup →
      (∀ k ∈ strikes, ∃ i d, b.entryAt? k.cell k.level = some i ∧ data[i]? = some d ∧
        d.header.isDestroyed = false ∧ k.destroyed = d.struck.header.isDestroyed) →
      levelsWith { b with data := strikeAll data (b.placesOf strikes) } destroyedFlag
        = levelsWith { b with data := data } destroyedFlag + strikes.countP Strike.destroyed := by
  induction strikes with
  | nil => intro data _ _; rfl
  | cons k strikes ih =>
    intro data hnodup hstrikes
    obtain ⟨i, d, hi, hd, hstands, hdestroyed⟩ := hstrikes k (by simp)
    obtain ⟨tile, level, -, -, hl, rfl⟩ := entryAt?_eq_some_iff.mp hi
    have hplaces : b.placesOf (k :: strikes) = level.dataIndex.toNat :: b.placesOf strikes :=
      List.filterMap_cons_some hi
    rw [hplaces, List.nodup_cons] at hnodup
    -- The strikes to come find their data as it is before this one.
    have hrest : ∀ k' ∈ strikes, ∃ i' d', b.entryAt? k'.cell k'.level = some i' ∧
        (data.modify level.dataIndex.toNat LevelData.struck)[i']? = some d' ∧
        d'.header.isDestroyed = false ∧ k'.destroyed = d'.struck.header.isDestroyed := by
      intro k' hk'
      obtain ⟨i', d', hi', hd', hrest⟩ := hstrikes k' (by simp [hk'])
      have hother : level.dataIndex.toNat ≠ i' := by
        rintro rfl
        exact hnodup.1 (mem_placesOf_iff.mpr ⟨k', hk', hi'⟩)
      exact ⟨i', d', hi', by rw [Array.getElem?_modify, if_neg hother]; exact hd', hrest⟩
    have hstep := destroyedLevels_modify hdistinct hl hd hstands
    have hlater := ih hnodup.2 hrest
    rw [hplaces, List.countP_cons, hdestroyed]
    show levelsWith { b with data := strikeAll (data.modify _ LevelData.struck) _ } _ = _
    rw [hlater, hstep]
    omega

/-- Strikes leave the flags alone that are not theirs. -/
theorem levelsWith_strikeAll {flag : UInt32} (hflag : destroyedFlag &&& flag = 0)
    (places : List Nat) :
    levelsWith { b with data := strikeAll b.data places } flag = b.levelsWith flag := by
  have hiterate (n : Nat) (d : LevelData) :
      (LevelData.struck^[n] d).header.hasFlag flag = d.header.hasFlag flag := by
    induction n generalizing d with
    | zero => rfl
    | succ n ih =>
      rw [Function.iterate_succ_apply, ih]
      exact LevelHeader.hasFlag_struck d.header hflag
  rw [levelsWith_eq, levelsWith_eq]
  refine List.countP_congr fun level _ => ?_
  rw [Level.hasFlagIn, Level.hasFlagIn, getElem?_strikeAll]
  cases b.data[level.dataIndex.toNat]? with
  | none => rfl
  | some d => simp [hiterate]

section
variable {damage : Box} {visits : List Visit} {final : Cascade}

/-- On a board whose levels do not share data, an event changes exactly the data of the levels
that it reports. -/
theorem Outcome.changed_iff (hu : b.Unshared) (h : b.Outcome damage visits final) {i : Nat} :
    final.data[i]? ≠ b.data[i]? ↔ ∃ k ∈ final.strikes, b.entryAt? k.cell k.level = some i := by
  constructor
  · intro hchanged
    by_contra hnone
    exact hchanged (h.tally.data_of_not_struck fun k hk hi => hnone ⟨k, hk, hi⟩)
  · rintro ⟨k, hk, hi⟩ hsame
    obtain ⟨i', d, hi', hd, hv, he, -⟩ := h.struck hu hk
    cases hi.symm.trans hi'
    rw [he, hd] at hsame
    exact LevelData.struck_ne hv (Option.some.inj hsame)

/-- The levels that an event reports as destroyed are all that it adds to the counts of the
board. -/
theorem Outcome.statistics_eq (hu : b.Unshared) (hdistinct : b.DistinctData)
    (h : b.Outcome damage visits final) :
    statistics { b with data := final.data } =
      { b.statistics with
        destroyedLevels := b.statistics.destroyedLevels
          + final.strikes.countP Strike.destroyed } := by
  have hplaces : final.data = strikeAll b.data (b.placesOf final.strikes.toList) :=
    h.tally.balanced
  have hdestroyed : levelsWith { b with data := final.data } destroyedFlag
      = b.levelsWith destroyedFlag + final.strikes.countP Strike.destroyed := by
    rw [hplaces, ← Array.countP_toList]
    refine destroyedLevels_strikeAll hdistinct (h.tally.nodup_placesOf hu) fun k hk => ?_
    obtain ⟨i, d, hi, hd, hv, -, -, hdestroyed⟩ := h.struck hu (Array.mem_toList_iff.mp hk)
    exact ⟨i, d, hi, hd, (LevelHeader.isVulnerable_iff.mp hv).1, hdestroyed⟩
  have hdestructible : levelsWith { b with data := final.data } destructibleFlag
      = b.levelsWith destructibleFlag := hplaces ▸ levelsWith_strikeAll (by decide) _
  have hstructural : levelsWith { b with data := final.data } structuralFlag
      = b.levelsWith structuralFlag := hplaces ▸ levelsWith_strikeAll (by decide) _
  rw [statistics, statistics, hdestroyed, hdestructible, hstructural]

end

/-- The report of an event agrees with what the event did to the board. -/
theorem report_agrees {grid : Grid} {payloadSize : UInt32} {tiles : Array Tile}
    {levels : Array Level} {data : Array LevelData}
    (hparts : ofParts grid payloadSize tiles levels data = .ok b) (hruns : b.DisjointRuns)
    (hdistinct : b.DistinctData) (damage : Box) :
    ∃ after report, b.damage? damage = some ({ b with data := after }, report) ∧
      (report.strikes.toList.map fun k => (k.cell, k.level)).Nodup ∧
      (∀ i : Nat, after[i]? ≠ b.data[i]? ↔
        ∃ k ∈ report.strikes, b.entryAt? k.cell k.level = some i) ∧
      (∀ k ∈ report.strikes, ∃ (i : Nat) (d e : LevelData),
        b.entryAt? k.cell k.level = some i ∧ b.data[i]? = some d ∧ after[i]? = some e ∧
        k.integrity = e.header.integrity ∧
        (e.header.isDestroyed = true ∧ d.header.isDestroyed = false ↔ k.destroyed = true)) ∧
      statistics { b with data := after } =
        { b.statistics with
          destroyedLevels := b.statistics.destroyedLevels + report.destroyedCount } := by
  have hu := hruns.unshared hdistinct
  obtain ⟨visits, final, houtcome⟩ := (Consistent.of_ofParts hparts).exists_outcome hu damage
  refine ⟨final.data, _, houtcome.damage?_eq, ?_, fun i => houtcome.changed_iff hu,
    fun k hk => ?_, houtcome.statistics_eq hu hdistinct⟩
  · rw [List.Nodup, List.pairwise_map]
    exact houtcome.tally.once.imp fun hne hsame => hne (Prod.mk.inj hsame)
  · obtain ⟨i, d, hi, hd, hv, he, hintegrity, hdestroyed⟩ := houtcome.struck hu hk
    refine ⟨i, d, d.struck, hi, hd, he, hintegrity, ?_⟩
    rw [hdestroyed]
    exact and_iff_left (LevelHeader.isVulnerable_iff.mp hv).1

/-- The runs of the row of walls have no level in common. -/
theorem disjointRuns_wallRow : wallRow.DisjointRuns := by decide

/-- The walls of the row have different data. -/
theorem distinctData_wallRow : wallRow.DistinctData := by decide

/-- The box over the middle of the row changes the data of the walls, and the three that
its report names are counted as destroyed after it. -/
theorem wallRow_report_agrees :
    ∃ after report, wallRow.damage? wallRowBox = some ({ wallRow with data := after }, report) ∧
      (report.strikes.toList.map fun k => (k.cell, k.level)).Nodup ∧
      (∀ i : Nat, after[i]? ≠ wallRow.data[i]? ↔
        ∃ k ∈ report.strikes, wallRow.entryAt? k.cell k.level = some i) ∧
      report.destroyedCount = 3 ∧
      (statistics { wallRow with data := after }).destroyedLevels
        = wallRow.statistics.destroyedLevels + 3 := by
  obtain ⟨after, report, hdamage, hnodup, hchanged, -, hstatistics⟩ :=
    report_agrees ofParts_wallRow disjointRuns_wallRow distinctData_wallRow wallRowBox
  have hthree : (wallRow.damage? wallRowBox).map (fun r => r.2.destroyedCount) = some 3 := by
    decide +kernel
  rw [hdamage, Option.map_some, Option.some.injEq] at hthree
  exact ⟨after, report, hdamage, hnodup, hchanged, hthree, by rw [hstatistics, hthree]⟩

end Board

end Battlemap
