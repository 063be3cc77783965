import Battlemap.Proofs.Damage.Run
import Mathlib.Data.List.Nodup

/-!
# `Battlemap.Proofs.Damage.Once`: no tile is visited twice

A cell is touched once it waits on the stack or was visited. Taking the next visit
off the stack moves its cell from one of the two lists to the other
(`touched_settle_perm`), spans that are added to a visit touch nothing, and a new
visit is only put on the stack for a key that was not reached before. So
`Cascade.Once` holds in every state of an event: no cell is touched twice, since the
keys of the touched ones are remembered. Two tiles may share a key; then one of them
may never be visited, but none is visited twice (`Board.nodup_visits`).
-/

set_option autoImplicit false

namespace Battlemap

namespace Cascade

/-- The cells whose visits are to come, in the order of the stack. -/
def waiting (s : Cascade) : List Cell := s.stack.toList.map Visit.cell

/-- The cells that were visited or wait. -/
def touched (s : Cascade) : List Cell := s.visited.toList ++ s.waiting

/-- A new visit touches its cell, after those before. -/
theorem touched_push (s : Cascade) (v : Visit) : (s.push v).touched = s.touched ++ [v.cell] := by
  simp [touched, waiting, push]

/-- Which tiles wait, and in which order, does not depend on their spans. -/
theorem waiting_extend {spans : List Span} {s t : Cascade} {i : Nat}
    (h : s.extend spans i = some t) : t.waiting = s.waiting := by
  rw [extend, Option.ite_none_right_eq_some] at h
  cases h.2
  apply List.ext_getElem?
  intro j
  simp only [waiting, List.getElem?_map, Array.getElem?_toList, Array.getElem?_modify]
  split
  case isTrue => cases s.stack[j]? <;> rfl
  case isFalse => rfl

/-- More spans for a visit that is waiting touch nothing new. -/
theorem touched_extend {spans : List Span} {s t : Cascade} {i : Nat}
    (h : s.extend spans i = some t) : t.touched = s.touched := by
  have hwaiting := waiting_extend h
  rw [extend, Option.ite_none_right_eq_some] at h
  cases h.2
  rw [touched, touched, hwaiting]

/-- The tile of the next visit goes from the end of the stack to the visited ones,
and stays touched. -/
theorem touched_settle_perm {s : Cascade} {v : Visit} (hv : s.stack.back? = some v)
    (swept : Sweep) : ((s.pop v).settle v swept).touched.Perm s.touched := by
  obtain ⟨rest, hstack⟩ := Array.back?_eq_some_iff.mp hv
  simp only [touched, waiting, settle, pop, hstack, Array.pop_push, Array.toList_push,
    List.map_append, List.map_cons, List.map_nil, List.append_assoc]
  exact List.Perm.append_left _ List.perm_append_comm

/-- No cell is touched twice, and the keys of the touched cells were reached. -/
structure Once (s : Cascade) : Prop where
  nodup : s.touched.Nodup
  reached : ∀ c ∈ s.touched, c.key ∈ s.reached

namespace Once

variable {s t : Cascade}

/-- A visit of a cell that was not touched touches it once. -/
theorem push (h : s.Once) {v : Visit} (hnew : v.cell ∉ s.touched) : (s.push v).Once where
  nodup := by
    rw [touched_push, ← List.concat_eq_append]
    exact h.nodup.concat hnew
  reached c hc := by
    rw [touched_push, List.mem_append, List.mem_singleton] at hc
    rw [Cascade.push, Std.TreeSet.mem_insert]
    rcases hc with hc | rfl
    · exact Or.inr (h.reached c hc)
    · exact Or.inl Std.ReflCmp.compare_self

/-- Reaching a tile touches it only if its key is new. -/
theorem reach (h : s.Once) {c : Cell} {spans : List Span} (ht : s.reach spans c = some t) :
    t.Once := by
  unfold Cascade.reach at ht
  split at ht
  -- A waiting tile gets the spans too, and stays where it is on the stack.
  case h_1 i _ =>
    have htouched := touched_extend ht
    rw [extend, Option.ite_none_right_eq_some] at ht
    cases ht.2
    exact ⟨htouched ▸ h.nodup, fun d hd => h.reached d (htouched ▸ hd)⟩
  -- Any other tile is only pushed if its key is new, and touched keys are not.
  case h_2 =>
    split at ht
    case isTrue => cases ht; exact h
    case isFalse hnew =>
      cases ht
      exact h.push fun hmem => hnew (h.reached c hmem)

/-- So reaching several tiles touches none twice. -/
theorem foldlM_reach {spans : List Span} :
    ∀ {cells : List Cell} {s t : Cascade}, s.Once → cells.foldlM (Cascade.reach spans) s = some t →
      t.Once := by
  intro cells
  induction cells with
  | nil => rintro s t h ⟨⟩; exact h
  | cons c cells ih =>
    intro s t h ht
    rw [List.foldlM_cons, Option.bind_eq_bind, Option.bind_eq_some_iff] at ht
    obtain ⟨u, hu, ht⟩ := ht
    exact ih (h.reach hu) ht

/-- A visit moves its cell from the stack to the cells that are done, and touches new ones once.
-/
theorem step {b : Board} (h : s.Once) (hstep : Step b s t) : t.Once := by
  obtain ⟨v, hv, ht⟩ := hstep
  obtain ⟨swept, hswept, -⟩ := Option.bind_eq_some_iff.mp ((visit_eq b (s.pop v) v).symm.trans ht)
  have hperm := touched_settle_perm hv swept
  have hsettled : ((s.pop v).settle v swept).Once :=
    ⟨hperm.nodup_iff.mpr h.nodup, fun c hc => h.reached c (hperm.mem_iff.mp hc)⟩
  -- The visit may pass spans on once its tile is settled.
  rcases visit_cases hswept ht with ⟨-, rfl⟩ | ⟨-, hfold⟩
  · exact hsettled
  · exact hsettled.foldlM_reach hfold

/-- Hence no cell is touched twice after any number of visits. -/
theorem steps {b : Board} (h : s.Once) (hsteps : Relation.ReflTransGen (Step b) s t) : t.Once := by
  induction hsteps with
  | refl => exact h
  | tail _ hstep ih => exact ih.step hstep

/-- The next tile was not visited before. -/
theorem next_not_visited (h : s.Once) {v : Visit} (hv : s.stack.back? = some v) :
    v.cell ∉ s.visited := by
  intro hmem
  have hwaiting : v.cell ∈ s.waiting := List.mem_map_of_mem (Array.mem_of_back? hv).val
  exact (List.nodup_append.mp h.nodup).2.2 _ hmem.val _ hwaiting rfl

/-- The visits at the start of an event are of different cells. -/
theorem foldl_push {spans : List Span} :
    ∀ {cells : List Cell} {s : Cascade}, s.Once → cells.Nodup → (∀ c ∈ cells, c ∉ s.touched) →
      (cells.foldl (fun s c => s.push ⟨c, spans⟩) s).Once := by
  intro cells
  induction cells with
  | nil => intro s h _ _; exact h
  | cons c cells ih =>
    intro s h hnodup hnew
    obtain ⟨hc, hnodup⟩ := List.nodup_cons.mp hnodup
    refine ih (h.push (hnew c (by simp))) hnodup ?_
    intro d hd hmem
    rw [touched_push, List.mem_append, List.mem_singleton] at hmem
    rcases hmem with hmem | rfl
    · exact hnew d (by simp [hd]) hmem
    · exact hc hd

end Once

end Cascade

namespace Board

/-- A box strikes each tile once by itself. -/
theorem nodup_struckCells (b : Board) (damage : Box) : (b.struckCells damage).Nodup := by
  unfold struckCells
  split
  · exact List.nodup_nil
  · exact Grid.nodup_rectangle _ _

/-- No cell is touched twice at the start of an event. -/
theorem once_cascadeOf (b : Board) (damage : Box) : (b.cascadeOf damage).Once := by
  have hempty : Cascade.Once ⟨b.data, #[], ∅, ∅, #[], #[]⟩ :=
    ⟨by simp [Cascade.touched, Cascade.waiting], by simp [Cascade.touched, Cascade.waiting]⟩
  exact hempty.foldl_push (b.nodup_struckCells damage)
    (by simp [Cascade.touched, Cascade.waiting])

/-- The visits of an event are to different tiles. -/
theorem nodup_visits {b : Board} {damage : Box} {visits : List Visit} {final : Cascade}
    (h : Cascade.Runs b (b.cascadeOf damage) visits final) : (visits.map Visit.cell).Nodup := by
  obtain ⟨hsteps, -⟩ := h.steps
  rw [← visited_of_runs h]
  exact (List.nodup_append.mp ((b.once_cascadeOf damage).steps hsteps).nodup).1

end Board

end Battlemap
