import Battlemap.Proofs.Damage.Once
import Battlemap.Proofs.Sharing
import Mathlib.Logic.Function.Iterate

/-!
# `Battlemap.Proofs.Damage.Effect`: what the strikes of an event do to the data

The data after an event is the data before it, struck at the places of the strikes in
the report, one after the other (`strikeAll`). Each place is struck as often as it is
named (`getElem?_strikeAll`), so the order of the strikes does not matter
(`strikeAll_perm`). Sweeps and visits keep the data and the strikes in step in this
way, whatever levels share (`Cascade.Balanced`).

On a board whose levels do not share data a visit finds the data of its levels as it
was before the event, since no tile is visited twice. `Cascade.Tally` says what follows
for the strikes: each level is named at most once, with the integrity that one strike
leaves of what it had. Every event has a `Board.Outcome` with such a tally.
-/

set_option autoImplicit false

namespace Battlemap

/-! ### Striking places -/

/-- The data of a level after one strike. -/
def LevelData.struck (d : LevelData) : LevelData := { d with header := d.header.struck }

/-- A strike on the data of a level is one on its header. -/
@[simp] theorem LevelData.header_struck (d : LevelData) : d.struck.header = d.header.struck := rfl

/-- Writing the struck header in place is striking the data there. -/
theorem modify_struck {data : Array LevelData} {i : Nat} {d : LevelData} (hd : data[i]? = some d) :
    (data.modify i fun e => { e with header := d.header.struck })
      = data.modify i LevelData.struck := by
  refine Array.ext_getElem? fun j => ?_
  rw [Array.getElem?_modify, Array.getElem?_modify]
  by_cases hij : i = j
  · rw [if_pos hij, if_pos hij, ← hij, hd, Option.map_some, Option.map_some, LevelData.struck]
  · rw [if_neg hij, if_neg hij]

/-- The data after the entries at some places were struck. -/
def strikeAll (data : Array LevelData) (places : List Nat) : Array LevelData :=
  places.foldl (fun data i => data.modify i LevelData.struck) data

/-- Strikes at two lists of places are strikes at one after the other. -/
theorem strikeAll_append (data : Array LevelData) (places places' : List Nat) :
    strikeAll data (places ++ places') = strikeAll (strikeAll data places) places' :=
  List.foldl_append

/-- An entry is struck as often as its place is named. -/
theorem getElem?_strikeAll (data : Array LevelData) (places : List Nat) (i : Nat) :
    (strikeAll data places)[i]? = data[i]?.map LevelData.struck^[places.count i] := by
  induction places generalizing data with
  | nil => simp [strikeAll]
  | cons place places ih =>
    show (strikeAll (data.modify place LevelData.struck) places)[i]? = _
    rw [ih, Array.getElem?_modify]
    by_cases hplace : place = i
    · rw [if_pos hplace, hplace, List.count_cons_self, Option.map_map, Function.iterate_succ]
    · rw [if_neg hplace, List.count_cons_of_ne hplace]

/-- Data is left alone where no strike is. -/
theorem getElem?_strikeAll_of_not_mem {places : List Nat} {i : Nat} (h : i ∉ places)
    (data : Array LevelData) : (strikeAll data places)[i]? = data[i]? := by
  simp [getElem?_strikeAll, List.count_eq_zero_of_not_mem h]

/-- Data is struck once where one strike is. -/
theorem getElem?_strikeAll_of_nodup {places : List Nat} {i : Nat} (hnodup : places.Nodup)
    (h : i ∈ places) (data : Array LevelData) :
    (strikeAll data places)[i]? = data[i]?.map LevelData.struck := by
  simp [getElem?_strikeAll, List.count_eq_one_of_mem hnodup h]

/-- The order of the places does not matter. -/
theorem strikeAll_perm {places places' : List Nat} (h : places.Perm places')
    (data : Array LevelData) : strikeAll data places = strikeAll data places' := by
  refine Array.ext_getElem? fun i => ?_
  rw [getElem?_strikeAll, getElem?_strikeAll, h.count_eq]

namespace Board

/-- The places of the data of the levels that strikes name. -/
def placesOf (b : Board) (strikes : List Strike) : List Nat :=
  strikes.filterMap fun k => b.entryAt? k.cell k.level

/-- The places of more strikes stand behind those before. -/
theorem placesOf_append (b : Board) (strikes news : List Strike) :
    b.placesOf (strikes ++ news) = b.placesOf strikes ++ b.placesOf news :=
  List.filterMap_append

/-- A place is among those of some strikes if one of them names a position with its data there.
-/
theorem mem_placesOf_iff {b : Board} {strikes : List Strike} {i : Nat} :
    i ∈ b.placesOf strikes ↔ ∃ k ∈ strikes, b.entryAt? k.cell k.level = some i :=
  List.mem_filterMap

end Board

/-! ### The data keeps step with the strikes -/

namespace Sweep

variable {b : Board} {v : Visit} {tile : Tile} {base : Array LevelData}

/-- Striking one level strikes its place, if it takes a strike at all. -/
theorem data_strikeLevel {sweep : Sweep} {position : Nat} {level : Level}
    (htile : b.tile? v.cell = some tile) (hposition : position < tile.count)
    (hl : b.levels[tile.first + position]? = some level)
    (h : sweep.data = strikeAll base (b.placesOf sweep.strikes.toList)) :
    (sweep.strikeLevel b.grid v position level).data
      = strikeAll base (b.placesOf (sweep.strikeLevel b.grid v position level).strikes.toList) := by
  have hentry : b.entryAt? v.cell position = some level.dataIndex.toNat :=
    Board.entryAt?_eq_some_iff.mpr ⟨tile, level, htile, hposition, hl, rfl⟩
  -- Where the level takes no strike, neither the data nor the report changes.
  unfold strikeLevel
  split
  case isFalse => exact h
  case isTrue =>
    split
    case h_1 => exact h
    case h_2 d hd =>
      split
      case isFalse => exact h
      case isTrue =>
        dsimp only
        rw [modify_struck hd, h, Array.toList_push, Board.placesOf_append, strikeAll_append]
        simp [Board.placesOf, hentry, strikeAll]

/-- A pass over positions of a tile leaves the data struck at the places of all strikes so far.
-/
theorem data_foldlM_strike {positions : List Nat} (htile : b.tile? v.cell = some tile)
    (hpositions : ∀ p ∈ positions, p < tile.count) {start final : Sweep}
    (hrun : positions.foldlM (Sweep.strike b v tile) start = some final)
    (h : start.data = strikeAll base (b.placesOf start.strikes.toList)) :
    final.data = strikeAll base (b.placesOf final.strikes.toList) := by
  induction positions generalizing start with
  | nil =>
    cases hrun
    exact h
  | cons p positions ih =>
    rw [List.foldlM_cons, Option.bind_eq_bind, Option.bind_eq_some_iff] at hrun
    obtain ⟨next, hnext, hrun⟩ := hrun
    obtain ⟨level, hl, rfl⟩ := Option.map_eq_some_iff.mp hnext
    exact ih (fun q hq => hpositions q (by simp [hq])) hrun
      (data_strikeLevel htile (hpositions p (by simp)) hl h)

end Sweep

namespace Cascade

/-- The data is that of the board, struck at the places of the strikes so far. -/
def Balanced (b : Board) (s : Cascade) : Prop :=
  s.data = strikeAll b.data (b.placesOf s.strikes.toList)

/-- A visit leaves the data struck at the places of its strikes too. -/
theorem Balanced.visit {b : Board} {s t : Cascade} {v : Visit} (h : s.Balanced b)
    (hin : b.grid.contains v.cell = true) (ht : visit b s v = some t) : t.Balanced b := by
  obtain ⟨swept, hswept, -⟩ := Option.bind_eq_some_iff.mp ((visit_eq b s v).symm.trans ht)
  obtain ⟨hdata, -, hstrikes⟩ := visit_frame hswept ht
  obtain ⟨tile, htile, hrun⟩ := Option.bind_eq_some_iff.mp hswept
  rw [Balanced, hdata, hstrikes]
  exact Sweep.data_foldlM_strike (Board.tile?_eq_some_iff.mpr ⟨hin, htile⟩)
    (fun p hp => List.mem_range.mp hp) hrun h

/-- What the strikes so far say of the levels, and of the data before the event. -/
structure Tally (b : Board) (s : Cascade) : Prop where
  balanced : s.Balanced b
  visited : ∀ k ∈ s.strikes, k.cell ∈ s.visited
  /-- No level is named twice. -/
  once : s.strikes.toList.Pairwise fun j k => ¬(j.cell = k.cell ∧ j.level = k.level)
  /-- A strike says what one strike leaves of the level. -/
  struck : ∀ k ∈ s.strikes, ∃ i d, b.entryAt? k.cell k.level = some i ∧ b.data[i]? = some d ∧
    d.header.isVulnerable = true ∧ k.integrity = d.struck.header.integrity ∧
    k.destroyed = d.struck.header.isDestroyed

namespace Tally

variable {b : Board} {s t : Cascade}

/-- On a board whose levels do not share data no place is struck twice. -/
theorem nodup_placesOf (hu : b.Unshared) (h : s.Tally b) :
    (b.placesOf s.strikes.toList).Nodup := by
  refine List.pairwise_filterMap.mpr (h.once.imp ?_)
  intro j k hne i hi i' hi' hsame
  subst hsame
  exact hne (hu _ _ _ _ i hi hi')

/-- Data that belongs to no level with a strike is that of before the event. -/
theorem data_of_not_struck (h : s.Tally b) {i : Nat}
    (hnone : ∀ k ∈ s.strikes, b.entryAt? k.cell k.level ≠ some i) : s.data[i]? = b.data[i]? := by
  rw [h.balanced]
  refine getElem?_strikeAll_of_not_mem ?_ _
  intro hmem
  obtain ⟨k, hk, hplace⟩ := Board.mem_placesOf_iff.mp hmem
  exact hnone k (Array.mem_toList_iff.mp hk) hplace

/-- The levels of a tile that was not visited have their data of before the event. -/
theorem data_of_not_visited (hu : b.Unshared) (h : s.Tally b) {c : Cell} (hc : c ∉ s.visited)
    {position i : Nat} (hi : b.entryAt? c position = some i) : s.data[i]? = b.data[i]? := by
  refine h.data_of_not_struck fun k hk hplace => ?_
  obtain ⟨rfl, -⟩ := hu _ _ _ _ i hplace hi
  exact hc (h.visited k hk)

/-- A visit keeps the tally. -/
theorem visit (hb : b.Consistent) (hu : b.Unshared) (h : s.Tally b) (hsafe : s.Safe b)
    (honce : s.Once) {v : Visit} (hv : s.stack.back? = some v)
    (ht : (s.pop v).visit b v = some t) : t.Tally b := by
  obtain ⟨tile, -, htile, swept, hswept, hafter⟩ := hsafe.sweep hb hv
  obtain ⟨-, hvisited, hstrikes⟩ := visit_frame (s := s.pop v) hswept ht
  have hin : b.grid.contains v.cell = true := hsafe.contains v (Array.mem_of_back? hv)
  have hnew : v.cell ∉ s.visited := honce.next_not_visited hv
  have hall : t.strikes.toList = s.strikes.toList ++ b.strikesOf v tile s.data := by
    rw [hstrikes, hafter.strikes]
  have hmem : ∀ k ∈ t.strikes, k ∈ s.strikes ∨ k ∈ b.strikesOf v tile s.data := by
    intro k hk
    rwa [← Array.mem_toList_iff, hall, List.mem_append, Array.mem_toList_iff] at hk
  refine ⟨Balanced.visit (s := s.pop v) h.balanced hin ht, fun k hk => ?_, ?_, fun k hk => ?_⟩
  · rw [hvisited, Array.mem_push]
    exact (hmem k hk).imp (h.visited k) Board.cell_of_mem_strikesOf
  · rw [hall, List.pairwise_append]
    refine ⟨h.once, (b.pairwise_strikesOf v tile s.data).imp ?_, fun j hj k hk hsame => ?_⟩
    · intro j k hlt hsame
      exact Nat.ne_of_lt hlt hsame.2
    · -- The strikes so far are on tiles that were visited before.
      have hcell : j.cell = v.cell := hsame.1.trans (Board.cell_of_mem_strikesOf hk)
      exact hnew (hcell ▸ h.visited j (Array.mem_toList_iff.mp hj))
  · rcases hmem k hk with hk | hk
    · exact h.struck k hk
    · obtain ⟨hlevel, hk⟩ := Board.mem_strikesOf_iff.mp hk
      have hcell : k.cell = v.cell := (Board.of_strikeAt hk).1
      obtain ⟨level, d, hl, hd, -, hstands, hkind, hstrike⟩ := Board.strikeAt_eq_some_iff.mp hk
      have hv' := LevelHeader.isVulnerable_iff.mpr ⟨hstands, hkind⟩
      have hentry : b.entryAt? v.cell k.level = some level.dataIndex.toNat :=
        Board.entryAt?_eq_some_iff.mpr
          ⟨tile, level, Board.tile?_eq_some_iff.mpr ⟨hin, htile⟩, hlevel, hl, rfl⟩
      -- The visit is the first one to this tile, so it strikes data of before the event.
      rw [h.data_of_not_visited hu hnew hentry] at hd
      refine ⟨_, d, hcell ▸ hentry, hd, hv', ?_, ?_⟩
      · rw [LevelData.header_struck, LevelHeader.integrity_struck, hstrike]
      · rw [LevelData.header_struck, LevelHeader.isDestroyed_struck hv', hstrike]

/-- Every state of an event that comes after one with a tally has a tally. -/
theorem steps (hb : b.Consistent) (hu : b.Unshared) (h : s.Tally b) (hsafe : s.Safe b)
    (honce : s.Once) (hsteps : Relation.ReflTransGen (Step b) s t) : t.Tally b ∧ t.Safe b := by
  induction hsteps with
  | refl => exact ⟨h, hsafe⟩
  | tail hbefore hstep ih =>
    obtain ⟨v, hv, ht⟩ := hstep
    exact ⟨ih.1.visit hb hu ih.2 (honce.steps hbefore) hv ht, ih.2.step hb ⟨v, hv, ht⟩⟩

end Tally

end Cascade

namespace Board

variable {b : Board}

/-- Before the first visit there are no strikes to tally. -/
theorem tally_cascadeOf (b : Board) (damage : Box) : (b.cascadeOf damage).Tally b := by
  obtain ⟨hdata, -, hstrikes⟩ :
      (b.cascadeOf damage).data = b.data ∧ _ ∧ (b.cascadeOf damage).strikes = #[] :=
    Cascade.foldl_push_frame _ _ _
  refine ⟨?_, ?_, ?_, ?_⟩
  · rw [Cascade.Balanced, hdata, hstrikes]
    rfl
  · simp [hstrikes]
  · simp [hstrikes]
  · simp [hstrikes]

/-- Every state of an event has a tally, and is safe. -/
theorem Consistent.tally_of_reachable (hb : b.Consistent) (hu : b.Unshared) {damage : Box}
    {s : Cascade} (h : Relation.ReflTransGen (Cascade.Step b) (b.cascadeOf damage) s) :
    s.Tally b ∧ s.Safe b :=
  (b.tally_cascadeOf damage).steps hb hu (hb.safe_cascadeOf damage) (b.once_cascadeOf damage) h

/-- The visits and the last state of an event. -/
structure Outcome (b : Board) (damage : Box) (visits : List Visit) (final : Cascade) : Prop where
  runs : Cascade.Runs b (b.cascadeOf damage) visits final
  tally : final.Tally b
  wear : DataWearsTo b.data final.data

/-- An event ends with the data and the report of its last state. -/
theorem Outcome.damage?_eq {damage : Box} {visits : List Visit} {final : Cascade}
    (h : b.Outcome damage visits final) :
    b.damage? damage
      = some ({ b with data := final.data }, ⟨final.visited, final.strikes⟩) := by
  rw [damage?, Cascade.run_eq_some_iff.mpr ⟨visits, h.runs⟩, Option.map_some]

/-- On a board whose levels do not share data, a level that an event reports has the data
of one strike afterwards. -/
theorem Outcome.struck (hu : b.Unshared) {damage : Box} {visits : List Visit} {final : Cascade}
    (h : b.Outcome damage visits final) {k : Strike} (hk : k ∈ final.strikes) :
    ∃ i d, b.entryAt? k.cell k.level = some i ∧ b.data[i]? = some d ∧
      d.header.isVulnerable = true ∧ final.data[i]? = some d.struck ∧
      k.integrity = d.struck.header.integrity ∧ k.destroyed = d.struck.header.isDestroyed := by
  obtain ⟨i, d, hi, hd, hv, hreport⟩ := h.tally.struck k hk
  have hmem : i ∈ b.placesOf final.strikes.toList :=
    mem_placesOf_iff.mpr ⟨k, Array.mem_toList_iff.mpr hk, hi⟩
  refine ⟨i, d, hi, hd, hv, ?_, hreport⟩
  rw [h.tally.balanced, getElem?_strikeAll_of_nodup (h.tally.nodup_placesOf hu) hmem, hd,
    Option.map_some]

/-- An event on a board whose levels do not share data has an outcome. -/
theorem Consistent.exists_outcome (hb : b.Consistent) (hu : b.Unshared) (damage : Box) :
    ∃ visits final, b.Outcome damage visits final := by
  obtain ⟨final, hrun, -⟩ := (hb.safe_cascadeOf damage).run hb
  obtain ⟨visits, hruns⟩ := Cascade.run_eq_some_iff.mp hrun
  obtain ⟨htally, hsafe⟩ := hb.tally_of_reachable hu hruns.steps.1
  exact ⟨visits, final, hruns, htally, hsafe.wear⟩

end Board

end Battlemap
