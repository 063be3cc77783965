import Battlemap.Proofs.Damage.Sweep
import Mathlib.Logic.Relation

/-!
# `Battlemap.Proofs.Damage.Run`: visits one after the other

`Cascade.Step` takes the next visit off the stack and makes it;
`Cascade.Runs` does so until none waits. `run_eq_some_iff` says that
`Cascade.run` finds exactly the runs.

The second half shows that on a consistent board no step meets an index
outside its array, whatever the size of the grid. What is needed of a
state is `Cascade.Safe`: cells of visits are tiles, the table names only
slots that hold a visit with the key, and the data is that of the board,
worn. It holds even where keys are shared, since a slot is forgotten
with the key of the visit that leaves it. `Safe.run` then gives a run
from every safe state.
-/

set_option autoImplicit false

namespace Battlemap

namespace Cascade

/-! ### Steps and runs -/

/-- One state follows another if it comes from making the next visit. -/
def Step (b : Board) (s t : Cascade) : Prop :=
  ∃ v, s.stack.back? = some v ∧ (s.pop v).visit b v = some t

/-- The state after the levels of a visited tile were struck. -/
def settle (s : Cascade) (v : Visit) (swept : Sweep) : Cascade :=
  ⟨swept.data, s.stack, s.reached, s.pending, s.visited.push v.cell, swept.strikes⟩

/-- A visit settles what its sweep did, and then reaches the neighbours if a level collapsed. -/
theorem visit_eq (b : Board) (s : Cascade) (v : Visit) :
    visit b s v = (sweep b v s.data s.strikes).bind fun swept =>
      if swept.collapsed.isEmpty then some (s.settle v swept)
      else (b.grid.neighbours v.cell).foldlM (reach swept.collapsed) (s.settle v swept) := rfl

/-- A run makes visits until none waits. It goes with the list of the
visits that were taken off the stack, in order. -/
inductive Runs (b : Board) : Cascade → List Visit → Cascade → Prop where
  | done {s : Cascade} (hnext : s.stack.back? = none) : Runs b s [] s
  | visit {s t final : Cascade} {v : Visit} {visits : List Visit}
      (hnext : s.stack.back? = some v) (ht : (s.pop v).visit b v = some t)
      (hrest : Runs b t visits final) : Runs b s (v :: visits) final

/-- `Cascade.run` finds exactly the runs. -/
theorem run_eq_some_iff {b : Board} {s final : Cascade} :
    run b s = some final ↔ ∃ visits, Runs b s visits final := by
  fun_induction run b s with
  | case1 s hnext =>
    constructor
    -- No visit waits: the run is over, and no other run starts here.
    · intro h
      cases h
      exact ⟨[], .done hnext⟩
    · rintro ⟨visits, hruns⟩
      cases hruns with
      | done => rfl
      | visit hv => rw [hnext] at hv; cases hv
  | case2 s v hnext hvisit =>
    refine ⟨nofun, ?_⟩
    rintro ⟨visits, hruns⟩
    cases hruns with
    | done hnone => rw [hnext] at hnone; cases hnone
    | visit hv ht => rw [hnext] at hv; cases hv; rw [hvisit] at ht; cases ht
  | case3 s v hnext t hvisit ih =>
    rw [ih]
    constructor
    · rintro ⟨visits, hruns⟩
      exact ⟨v :: visits, .visit hnext hvisit hruns⟩
    · rintro ⟨visits, hruns⟩
      cases hruns with
      | done hnone => rw [hnext] at hnone; cases hnone
      | visit hv ht hrest =>
        rw [hnext] at hv
        cases hv
        rw [hvisit] at ht
        cases ht
        exact ⟨_, hrest⟩

/-- A step does not change where the run ends. -/
theorem run_eq_of_step {b : Board} {s t : Cascade} (h : Step b s t) : run b s = run b t := by
  obtain ⟨v, hnext, ht⟩ := h
  rw [run]
  split
  case h_1 hnone => rw [hnext] at hnone; cases hnone
  case h_2 w hw =>
    rw [hnext] at hw
    cases hw
    split
    case h_1 hvisit => rw [ht] at hvisit; cases hvisit
    case h_2 u hu => rw [ht] at hu; cases hu; rfl

/-- A run goes on from any state that it comes through. -/
theorem run_eq_of_steps {b : Board} {s t : Cascade} (h : Relation.ReflTransGen (Step b) s t) :
    run b s = run b t := by
  induction h with
  | refl => rfl
  | tail _ hstep ih => exact ih.trans (run_eq_of_step hstep)

/-- Every state of a run comes from the first one by steps, and no visit
waits in the last one. -/
theorem Runs.steps {b : Board} {s final : Cascade} {visits : List Visit}
    (h : Runs b s visits final) :
    Relation.ReflTransGen (Step b) s final ∧ final.stack = #[] := by
  induction h with
  | done hnext => exact ⟨.refl, Array.back?_eq_none_iff.mp hnext⟩
  | visit hnext ht _ ih => exact ⟨.head ⟨_, hnext, ht⟩ ih.1, ih.2⟩

/-- After some of its visits, a run goes on with a run for the others. -/
theorem Runs.split {b : Board} {s final : Cascade} {before later : List Visit}
    (h : Runs b s (before ++ later) final) :
    ∃ t, Relation.ReflTransGen (Step b) s t ∧ Runs b t later final := by
  induction before generalizing s with
  | nil => exact ⟨s, .refl, h⟩
  | cons v before ih =>
    cases h with
    | visit hnext ht hrest =>
      obtain ⟨t, hsteps, hlater⟩ := ih hrest
      exact ⟨t, .head ⟨v, hnext, ht⟩ hsteps, hlater⟩

/-! ### What a visit leaves alone -/

/-- Passing spans on changes nothing but the stack and its tables. -/
theorem reach_frame {spans : List Span} {s t : Cascade} {c : Cell}
    (h : s.reach spans c = some t) :
    t.data = s.data ∧ t.visited = s.visited ∧ t.strikes = s.strikes := by
  unfold reach at h
  split at h
  · unfold extend at h
    split at h
    · cases h
      exact ⟨rfl, rfl, rfl⟩
    · cases h
  · split at h <;> cases h <;> exact ⟨rfl, rfl, rfl⟩

/-- Reaching tiles leaves the data, the visited cells and the strikes alone. -/
theorem foldlM_reach_frame {spans : List Span} :
    ∀ {cells : List Cell} {s t : Cascade}, cells.foldlM (reach spans) s = some t →
      t.data = s.data ∧ t.visited = s.visited ∧ t.strikes = s.strikes := by
  intro cells
  induction cells with
  | nil => rintro s t ⟨⟩; exact ⟨rfl, rfl, rfl⟩
  | cons c cells ih =>
    intro s t h
    rw [List.foldlM_cons, Option.bind_eq_bind, Option.bind_eq_some_iff] at h
    obtain ⟨u, hu, ht⟩ := h
    obtain ⟨hd, hv, hk⟩ := reach_frame hu
    rw [← hd, ← hv, ← hk]
    exact ih ht

/-- A visit either destroys nothing and is over with the sweep, or passes
the spans of what it destroyed on. -/
theorem visit_cases {b : Board} {s t : Cascade} {v : Visit} {swept : Sweep}
    (hswept : sweep b v s.data s.strikes = some swept) (h : visit b s v = some t) :
    (swept.collapsed = [] ∧ t = s.settle v swept) ∨
      (swept.collapsed ≠ [] ∧
        (b.grid.neighbours v.cell).foldlM (reach swept.collapsed) (s.settle v swept) = some t) := by
  rw [visit_eq, hswept, Option.bind_some] at h
  split at h
  case isTrue hnone => cases h; exact .inl ⟨List.isEmpty_iff.mp hnone, rfl⟩
  case isFalse hsome => exact .inr ⟨fun hnone => hsome (List.isEmpty_iff.mpr hnone), h⟩

/-- The data and the strikes after a visit are those after its sweep, and
its tile was visited. -/
theorem visit_frame {b : Board} {s t : Cascade} {v : Visit} {swept : Sweep}
    (hswept : sweep b v s.data s.strikes = some swept) (h : visit b s v = some t) :
    t.data = swept.data ∧ t.visited = s.visited.push v.cell ∧ t.strikes = swept.strikes := by
  rcases visit_cases hswept h with ⟨-, rfl⟩ | ⟨-, h⟩
  · exact ⟨rfl, rfl, rfl⟩
  · exact foldlM_reach_frame h

/-- A run visits the tiles of the visits that it takes off the stack. -/
theorem Runs.visited {b : Board} {s final : Cascade} {visits : List Visit}
    (h : Runs b s visits final) :
    final.visited.toList = s.visited.toList ++ visits.map Visit.cell := by
  induction h with
  | done => simp
  | @visit s t final v visits hnext ht _ ih =>
    obtain ⟨swept, hswept, -⟩ := Option.bind_eq_some_iff.mp ((visit_eq b (s.pop v) v).symm.trans ht)
    obtain ⟨-, hvisited, -⟩ := visit_frame hswept ht
    rw [ih, hvisited]
    simp [pop]

/-! ### No index is out of range -/

/-- What a state must be like for its next visit to succeed. -/
structure Safe (b : Board) (s : Cascade) : Prop where
  contains : ∀ v ∈ s.stack, b.grid.contains v.cell = true
  slot : ∀ (k : UInt32) (i : Nat), s.pending[k]? = some i →
    ∃ v, s.stack[i]? = some v ∧ v.cell.key = k
  wear : DataWearsTo b.data s.data

namespace Safe

variable {b : Board} {s : Cascade}

/-- A slot that the table names lies inside the stack. -/
theorem slot_lt (h : s.Safe b) {k : UInt32} {i : Nat} (hi : s.pending[k]? = some i) :
    i < s.stack.size := by
  obtain ⟨v, hv, -⟩ := h.slot k i hi
  exact (Array.getElem?_eq_some_iff.mp hv).1

/-- A visit of a cell of the grid can be put on the stack. -/
theorem push (h : s.Safe b) {v : Visit} (hv : b.grid.contains v.cell = true) :
    (s.push v).Safe b where
  contains w hw := by
    rcases Array.mem_push.mp hw with hw | rfl
    · exact h.contains w hw
    · exact hv
  slot k i hi := by
    simp only [Cascade.push, Std.TreeMap.getElem?_insert,
      Std.LawfulEqOrd.compare_eq_iff_eq] at hi ⊢
    split at hi
    case isTrue hk => cases hi; exact ⟨v, by simp, hk⟩
    case isFalse =>
      -- An old slot lies below the new one and holds what it held.
      obtain ⟨w, hw, hkey⟩ := h.slot k i hi
      have hne : i ≠ s.stack.size := Nat.ne_of_lt (h.slot_lt hi)
      exact ⟨w, by rw [Array.getElem?_push, if_neg hne]; exact hw, hkey⟩
  wear := h.wear

/-- The slot of the visit that is taken off is forgotten with its key. -/
theorem pop (h : s.Safe b) {v : Visit} (hv : s.stack.back? = some v) : (s.pop v).Safe b := by
  obtain ⟨rest, hstack⟩ := Array.back?_eq_some_iff.mp hv
  refine ⟨fun w hw => ?_, fun k i hi => ?_, h.wear⟩
  · simp only [Cascade.pop, hstack, Array.pop_push] at hw
    exact h.contains w (hstack ▸ Array.mem_push.mpr (.inl hw))
  · simp only [Cascade.pop, Std.TreeMap.getElem?_erase, Std.LawfulEqOrd.compare_eq_iff_eq] at hi
    split at hi
    case isTrue => cases hi
    case isFalse hk =>
      obtain ⟨w, hw, hkey⟩ := h.slot k i hi
      simp only [hstack, Array.getElem?_push] at hw
      -- Only the erased key can name the slot that is given up.
      split at hw
      case isTrue => cases hw; exact absurd hkey hk
      case isFalse => exact ⟨w, by simpa [Cascade.pop, hstack] using hw, hkey⟩

/-- A visit that is waiting can be given more spans, since its slot is on the stack. -/
theorem extend (h : s.Safe b) {k : UInt32} {i : Nat} (hi : s.pending[k]? = some i)
    (spans : List Span) : ∃ t, s.extend spans i = some t ∧ t.Safe b := by
  rw [Cascade.extend, if_pos (h.slot_lt hi)]
  refine ⟨_, rfl, fun v hv => ?_, fun k j hj => ?_, h.wear⟩
  · obtain ⟨j, hj⟩ := Array.mem_iff_getElem?.mp hv
    rw [Array.getElem?_modify] at hj
    split at hj
    case isTrue hij =>
      obtain ⟨w, hw, rfl⟩ := Option.map_eq_some_iff.mp hj
      exact h.contains w (Array.mem_of_getElem? hw)
    case isFalse => exact h.contains v (Array.mem_of_getElem? hj)
  · obtain ⟨w, hw, hkey⟩ := h.slot k j hj
    rw [Array.getElem?_modify, hw]
    split
    · exact ⟨_, rfl, hkey⟩
    · exact ⟨w, rfl, hkey⟩

/-- Every tile of the grid can be reached. -/
theorem reach (h : s.Safe b) {c : Cell} (hc : b.grid.contains c = true) (spans : List Span) :
    ∃ t, s.reach spans c = some t ∧ t.Safe b := by
  unfold Cascade.reach
  split
  case h_1 i hi => exact h.extend hi spans
  case h_2 =>
    split
    · exact ⟨s, rfl, h⟩
    · exact ⟨_, rfl, h.push hc⟩

/-- So can several of them, one after the other. -/
theorem foldlM_reach {spans : List Span} :
    ∀ (cells : List Cell) (s : Cascade), (∀ c ∈ cells, b.grid.contains c = true) → s.Safe b →
      ∃ t, cells.foldlM (Cascade.reach spans) s = some t ∧ t.Safe b := by
  intro cells
  induction cells with
  | nil => intro s _ h; exact ⟨s, rfl, h⟩
  | cons c cells ih =>
    intro s hin h
    obtain ⟨t, ht, hsafe⟩ := h.reach (hin c (by simp)) spans
    obtain ⟨u, hu, hsafe'⟩ := ih t (fun d hd => hin d (by simp [hd])) hsafe
    refine ⟨u, ?_, hsafe'⟩
    rw [List.foldlM_cons, ht]
    exact hu

/-- The next visit of a safe state finds its tile and sweeps it. -/
theorem sweep (hb : b.Consistent) (h : s.Safe b) {v : Visit} (hv : s.stack.back? = some v) :
    ∃ tile ∈ b.tiles, b.tiles[b.grid.tileIndex v.cell]? = some tile ∧
      ∃ swept, Cascade.sweep b v s.data s.strikes = some swept ∧
        Sweep.After b tile ⟨s.data, [], s.strikes⟩ (b.strikesOf v tile s.data) swept := by
  obtain ⟨tile, ht, htile⟩ := hb.tile (h.contains v (Array.mem_of_back? hv))
  exact ⟨tile, ht, htile, Cascade.sweep_eq s.strikes (hb.worn h.wear) ht htile⟩

/-- The next visit of a safe state succeeds and leaves a safe state. -/
theorem visit (hb : b.Consistent) (h : s.Safe b) {v : Visit} (hv : s.stack.back? = some v) :
    ∃ t, (s.pop v).visit b v = some t ∧ t.Safe b := by
  obtain ⟨tile, -, -, swept, hswept, hafter⟩ := h.sweep hb hv
  have hsettled : ((s.pop v).settle v swept).Safe b :=
    { h.pop hv with wear := h.wear.trans hafter.wear }
  rw [visit_eq, Cascade.pop, hswept, Option.bind_some]
  split
  · exact ⟨_, rfl, hsettled⟩
  · exact foldlM_reach _ _ (fun c hc => Grid.contains_of_mem_neighbours hc) hsettled

/-- What makes a visit succeed also holds after it. -/
theorem step (hb : b.Consistent) {t : Cascade} (h : s.Safe b) (hstep : Step b s t) : t.Safe b := by
  obtain ⟨v, hv, ht⟩ := hstep
  obtain ⟨t', ht', hsafe⟩ := h.visit hb hv
  rw [ht] at ht'
  cases ht'
  exact hsafe

/-- From every safe state of a consistent board there is a run, and its
steps keep the state safe. -/
theorem run (hb : b.Consistent) (h : s.Safe b) : ∃ t, Cascade.run b s = some t ∧ t.Safe b := by
  fun_induction Cascade.run b s with
  | case1 s => exact ⟨s, rfl, h⟩
  | case2 s v hnext hvisit =>
    obtain ⟨t, ht, -⟩ := h.visit hb hnext
    rw [hvisit] at ht
    cases ht
  | case3 s v hnext u hvisit ih => exact ih (h.step hb ⟨v, hnext, hvisit⟩)

end Safe

/-! ### The first state -/

/-- Putting the first visits on the stack leaves the data, the visited cells and the strikes
alone. -/
theorem foldl_push_frame (spans : List Span) (cells : List Cell) (s : Cascade) :
    (cells.foldl (fun s c => s.push ⟨c, spans⟩) s).data = s.data ∧
      (cells.foldl (fun s c => s.push ⟨c, spans⟩) s).visited = s.visited ∧
      (cells.foldl (fun s c => s.push ⟨c, spans⟩) s).strikes = s.strikes := by
  induction cells generalizing s with
  | nil => exact ⟨rfl, rfl, rfl⟩
  | cons c cells ih => exact ih (s.push ⟨c, spans⟩)

end Cascade

namespace Board

/-- The tiles that a box strikes by itself are tiles of the grid. -/
theorem Consistent.contains_struckCells {b : Board} (hb : b.Consistent) {damage : Box} {c : Cell}
    (hc : c ∈ b.struckCells damage) : b.grid.contains c = true := by
  unfold struckCells at hc
  split at hc
  case isTrue => cases hc
  case isFalse hsome =>
    have hpos : 0 < b.grid.tileCount := by
      rw [← hb.tileCount]
      simp only [Bool.or_eq_true, not_or, Array.isEmpty_iff] at hsome
      exact Array.size_pos_iff.mpr hsome.1
    obtain ⟨hx, hz⟩ := Grid.contains_iff.mp
      (Grid.cellAt_contains hpos damage.max.x damage.max.z)
    have hin := Grid.mem_rectangle_iff.mp hc
    exact Grid.contains_iff.mpr ⟨by omega, by omega⟩

/-- The start of an event on a consistent board is safe. -/
theorem Consistent.safe_cascadeOf {b : Board} (hb : b.Consistent) (damage : Box) :
    (b.cascadeOf damage).Safe b := by
  have hstart : Cascade.Safe b ⟨b.data, #[], ∅, ∅, #[], #[]⟩ :=
    ⟨by simp, by simp, .refl b.data⟩
  have hin : ∀ c ∈ b.struckCells damage, b.grid.contains c = true :=
    fun c hc => hb.contains_struckCells hc
  unfold cascadeOf
  -- The induction is over the struck tiles, from any safe state on.
  generalize b.struckCells damage = cells at hin
  generalize (⟨b.data, #[], ∅, ∅, #[], #[]⟩ : Cascade) = s at hstart
  induction cells generalizing s with
  | nil => exact hstart
  | cons c cells ih =>
    exact ih (fun d hd => hin d (by simp [hd])) _ (hstart.push (hin c (by simp)))

/-- An event has visited the tiles of its visits in the end. -/
theorem visited_of_runs {b : Board} {damage : Box} {visits : List Visit} {final : Cascade}
    (h : Cascade.Runs b (b.cascadeOf damage) visits final) :
    final.visited.toList = visits.map Visit.cell := by
  have hnone : (b.cascadeOf damage).visited = #[] := (Cascade.foldl_push_frame _ _ _).2.1
  simpa [hnone] using h.visited

end Board

end Battlemap
