import Battlemap.Proofs.Damage.Once

/-!
# `Battlemap.Proofs.Damage.Ledger`: the stack and its two tables

An event keeps a stack of visits, a set of keys that were ever put on it,
and a table from the keys of waiting tiles to their slots. Visits in the
middle of the stack are changed through remembered slots while the stack
grows and shrinks. `Cascade.Ledger` is the invariant that makes this
right. It speaks of cells, and says of a record of what was delivered to
each cell:

* no cell is touched twice, where a cell is touched once it waits or was
  visited;
* the table has the slot of each waiting tile and of no other
  (`Ledger.slot`), so a slot never goes stale;
* a waiting visit has exactly the spans that were delivered to its tile,
  and a cell is touched exactly if something was delivered to it.

Each operation on the stack keeps it: `Ledger.push`, `Ledger.settle` for
taking a visit off, and `Ledger.reach` for a delivery. All need keys that
tell tiles apart.
-/

set_option autoImplicit false

namespace Battlemap

/-! ### Cells and keys -/

/-- Where keys tell cells apart, so does comparing keys. -/
theorem Grid.compare_key_eq_iff {g : Grid} (hg : g.KeysApart) {c d : Cell}
    (hc : g.contains c = true) (hd : g.contains d = true) :
    compare c.key d.key = .eq ↔ c = d := by
  rw [Std.LawfulEqOrd.compare_eq_iff_eq]
  exact ⟨hg c d hc hd, congrArg Cell.key⟩

/-- A last element that is not looked for does not change where an element
is found. -/
theorem getElem?_concat_of_ne {α : Type} {l : List α} {a c : α} (hne : a ≠ c) (i : Nat) :
    (l ++ [a])[i]? = some c ↔ l[i]? = some c := by
  rw [List.getElem?_append]
  split
  case isTrue => exact Iff.rfl
  case isFalse hi =>
    rw [List.getElem?_eq_none (Nat.not_lt.mp hi), List.getElem?_singleton]
    split <;> simp [hne]

/-- A new last element is found at the end and nowhere else. -/
theorem getElem?_concat_self {α : Type} {l : List α} {c : α} (hnew : c ∉ l) (i : Nat) :
    (l ++ [c])[i]? = some c ↔ i = l.length := by
  rw [List.getElem?_append]
  split
  case isTrue hi =>
    refine ⟨fun h => absurd (List.mem_of_getElem? h) hnew, fun h => ?_⟩
    omega
  case isFalse hi =>
    rw [List.getElem?_singleton]
    split <;> simp <;> omega

/-! ### Deliveries -/

/-- For each cell the spans that were delivered to it. -/
abbrev Deliveries : Type := Cell → List Span

/-- Deliver some spans to some cells. -/
def Deliveries.add (delivered : Deliveries) (spans : List Span) (cells : List Cell) : Deliveries :=
  fun c => if c ∈ cells then delivered c ++ spans else delivered c

/-- Delivering to one cell after the other is delivering to all. -/
theorem Deliveries.add_cons {delivered : Deliveries} {spans : List Span} {c : Cell}
    {cells : List Cell} (hc : c ∉ cells) :
    (delivered.add spans [c]).add spans cells = delivered.add spans (c :: cells) := by
  funext d
  by_cases hd : d = c
  · subst hd
    simp [add, hc]
  · simp [add, hd]

namespace Cascade

/-- The stack and its tables agree with what was delivered to the cells
of a grid. -/
structure Ledger (g : Grid) (delivered : Deliveries) (s : Cascade) : Prop where
  contains : ∀ c ∈ s.touched, g.contains c = true
  nodup : s.touched.Nodup
  slot : ∀ c, g.contains c = true → ∀ i, s.pending[c.key]? = some i ↔ s.waiting[i]? = some c
  reached : ∀ c, g.contains c = true → (c.key ∈ s.reached ↔ c ∈ s.touched)
  spans : ∀ v ∈ s.stack, v.spans = delivered v.cell
  arrived : ∀ c, g.contains c = true → (delivered c ≠ [] ↔ c ∈ s.touched)

namespace Ledger

variable {g : Grid} {delivered : Deliveries} {s : Cascade}

/-- Only what was delivered to tiles of the grid matters. -/
theorem congr (h : s.Ledger g delivered) {delivered' : Deliveries}
    (hsame : ∀ c, g.contains c = true → delivered' c = delivered c) : s.Ledger g delivered' where
  contains := h.contains
  nodup := h.nodup
  slot := h.slot
  reached := h.reached
  spans v hv := by
    rw [h.spans v hv, hsame v.cell]
    exact h.contains v.cell (List.mem_append_right _ (List.mem_map_of_mem hv.val))
  arrived c hc := by rw [hsame c hc, h.arrived c hc]

/-- Nothing was delivered to a cell that is not touched. -/
theorem delivered_eq_nil (h : s.Ledger g delivered) {c : Cell} (hc : g.contains c = true)
    (hnew : c ∉ s.touched) : delivered c = [] := by
  by_contra hne
  exact hnew ((h.arrived c hc).mp hne)

/-- A slot that the table names holds the visit of the tile with the key. -/
theorem exists_waiting (h : s.Ledger g delivered) {c : Cell} (hc : g.contains c = true) {i : Nat}
    (hi : s.pending[c.key]? = some i) : ∃ v, s.stack[i]? = some v ∧ v.cell = c := by
  have hw := (h.slot c hc i).mp hi
  simpa [waiting, List.getElem?_map, Option.map_eq_some_iff] using hw

/-- Putting a tile on the stack that is not touched. -/
theorem push (hg : g.KeysApart) (h : s.Ledger g delivered) {c : Cell} (hc : g.contains c = true)
    (hnew : c ∉ s.touched) {spans : List Span} (hne : spans ≠ []) :
    (s.push ⟨c, spans⟩).Ledger g (delivered.add spans [c]) where
  contains d hd := by
    rw [touched_push, List.mem_append, List.mem_singleton] at hd
    rcases hd with hd | rfl
    · exact h.contains d hd
    · exact hc
  nodup := by
    rw [touched_push, ← List.concat_eq_append]
    exact h.nodup.concat hnew
  slot d hd i := by
    have hwaiting : (s.push ⟨c, spans⟩).waiting = s.waiting ++ [c] := by
      simp [waiting, Cascade.push]
    have hsize : s.waiting.length = s.stack.size := by simp [waiting]
    rw [hwaiting]
    simp only [Cascade.push, Std.TreeMap.getElem?_insert, Grid.compare_key_eq_iff hg hc hd]
    split
    case isTrue heq =>
      subst heq
      -- The tile did not wait before, so the new slot is its only one.
      have hfree : c ∉ s.waiting := fun hw => hnew (List.mem_append_right _ hw)
      rw [getElem?_concat_self hfree, Option.some.injEq, hsize, eq_comm]
    case isFalse hother => rw [getElem?_concat_of_ne hother, h.slot d hd]
  reached d hd := by
    rw [touched_push, List.mem_append, List.mem_singleton]
    simp only [Cascade.push, Std.TreeSet.mem_insert, Grid.compare_key_eq_iff hg hc hd,
      h.reached d hd]
    rw [or_comm, eq_comm]
  spans v hv := by
    simp only [Cascade.push, Array.mem_push] at hv
    rcases hv with hv | rfl
    · have hother : v.cell ≠ c := by
        rintro rfl
        exact hnew (List.mem_append_right _ (List.mem_map_of_mem hv.val))
      simpa [Deliveries.add, hother] using h.spans v hv
    · simp [Deliveries.add, h.delivered_eq_nil hc hnew]
  arrived d hd := by
    rw [touched_push, List.mem_append, List.mem_singleton]
    by_cases heq : d = c
    · simp [Deliveries.add, heq, hne]
    · simp only [Deliveries.add, List.mem_singleton, heq, if_false, or_false]
      exact h.arrived d hd

/-- Taking the next visit off the stack and striking its tile. -/
theorem settle (hg : g.KeysApart) (h : s.Ledger g delivered) {v : Visit}
    (hv : s.stack.back? = some v) (swept : Sweep) :
    ((s.pop v).settle v swept).Ledger g delivered := by
  obtain ⟨rest, hstack⟩ := Array.back?_eq_some_iff.mp hv
  have hwaiting : s.waiting = rest.toList.map Visit.cell ++ [v.cell] := by simp [waiting, hstack]
  have hrest : ((s.pop v).settle v swept).waiting = rest.toList.map Visit.cell := by
    simp [waiting, Cascade.settle, pop, hstack]
  have hperm := touched_settle_perm hv swept
  have hv' : v ∈ s.stack := Array.mem_of_back? hv
  have hcell : g.contains v.cell = true :=
    h.contains v.cell (List.mem_append_right _ (List.mem_map_of_mem hv'.val))
  -- No other visit on the stack is to this tile, so erasing its key loses no slot.
  have hfree : v.cell ∉ rest.toList.map Visit.cell := by
    have hnodup := (List.nodup_append.mp h.nodup).2.1
    rw [hwaiting] at hnodup
    exact fun hmem => (List.nodup_append.mp hnodup).2.2 _ hmem _ (by simp) rfl
  exact {
    contains := fun c hc => h.contains c (hperm.mem_iff.mp hc)
    nodup := hperm.nodup_iff.mpr h.nodup
    slot := fun c hc i => by
      rw [hrest]
      simp only [Cascade.settle, pop, Std.TreeMap.getElem?_erase,
        Grid.compare_key_eq_iff hg hcell hc]
      split
      case isTrue heq =>
        subst heq
        exact ⟨fun hslot => absurd hslot (by simp),
          fun hi => absurd (List.mem_of_getElem? hi) hfree⟩
      case isFalse hother =>
        rw [h.slot c hc, hwaiting, getElem?_concat_of_ne hother]
    reached := fun c hc => (h.reached c hc).trans hperm.mem_iff.symm
    spans := fun w hw => h.spans w (by
      simp only [Cascade.settle, pop, hstack, Array.pop_push] at hw
      rw [hstack]
      exact Array.mem_push.mpr (.inl hw))
    arrived := fun c hc => (h.arrived c hc).trans hperm.mem_iff.symm }

/-- Adding spans to a visit that waits. -/
theorem extend (h : s.Ledger g delivered) {c : Cell} (hc : g.contains c = true) {i : Nat}
    (hi : s.pending[c.key]? = some i) {spans : List Span} (hne : spans ≠ []) {t : Cascade}
    (ht : s.extend spans i = some t) : t.Ledger g (delivered.add spans [c]) := by
  obtain ⟨v, hget, rfl⟩ := h.exists_waiting hc hi
  obtain ⟨hlt, -⟩ := Array.getElem?_eq_some_iff.mp hget
  have hwaiting := waiting_extend ht
  have htouched := touched_extend ht
  rw [Cascade.extend, if_pos hlt] at ht
  cases ht
  have hmem : v.cell ∈ s.touched :=
    List.mem_append_right _ (List.mem_of_getElem? ((h.slot v.cell hc i).mp hi))
  exact {
    contains := fun d hd => h.contains d (htouched ▸ hd)
    nodup := htouched.symm ▸ h.nodup
    slot := fun d hd j => by rw [hwaiting]; exact h.slot d hd j
    reached := fun d hd => by rw [htouched]; exact h.reached d hd
    spans := fun w hw => by
      obtain ⟨j, hj⟩ := Array.mem_iff_getElem?.mp hw
      rw [Array.getElem?_modify] at hj
      split at hj
      case isTrue hij =>
        subst hij
        rw [hget] at hj
        cases hj
        simp [Deliveries.add, h.spans v (Array.mem_of_getElem? hget)]
      case isFalse hij =>
        -- Another slot holds the visit of another tile.
        have hother : w.cell ≠ v.cell := by
          intro heq
          have hwj : s.waiting[j]? = some v.cell := by simp [waiting, hj, heq]
          have hji := ((h.slot v.cell hc j).mpr hwj).symm.trans hi
          exact hij (Option.some.inj hji).symm
        simpa [Deliveries.add, hother] using h.spans w (Array.mem_of_getElem? hj)
    arrived := fun d hd => by
      rw [htouched]
      by_cases heq : d = v.cell
      · simp [Deliveries.add, heq, hne, hmem]
      · simpa [Deliveries.add, heq] using h.arrived d hd }

/-- A delivery to a visited tile is lost. -/
theorem lose (h : s.Ledger g delivered) {c : Cell} (hmem : c ∈ s.touched) (hfree : c ∉ s.waiting)
    {spans : List Span} (hne : spans ≠ []) : s.Ledger g (delivered.add spans [c]) where
  contains := h.contains
  nodup := h.nodup
  slot := h.slot
  reached := h.reached
  spans v hv := by
    have hother : v.cell ≠ c := by
      rintro rfl
      exact hfree (List.mem_map_of_mem hv.val)
    simpa [Deliveries.add, hother] using h.spans v hv
  arrived d hd := by
    by_cases heq : d = c
    · simp [Deliveries.add, heq, hne, hmem]
    · simpa [Deliveries.add, heq] using h.arrived d hd

/-- A delivery to a tile. It is added to the visit of the tile if that
waits, is lost if the tile was visited, and else starts a visit. -/
theorem reach (hg : g.KeysApart) (h : s.Ledger g delivered) {c : Cell} (hc : g.contains c = true)
    {spans : List Span} (hne : spans ≠ []) {t : Cascade} (ht : s.reach spans c = some t) :
    t.Ledger g (delivered.add spans [c]) := by
  unfold Cascade.reach at ht
  split at ht
  case h_1 i hi => exact h.extend hc hi hne ht
  case h_2 hnone =>
    -- A tile without a slot does not wait; it was visited or is new.
    have hfree : c ∉ s.waiting := by
      intro hw
      obtain ⟨i, hi⟩ := List.mem_iff_getElem?.mp hw
      rw [(h.slot c hc i).mpr hi] at hnone
      cases hnone
    split at ht
    case isTrue hreached =>
      cases ht
      exact h.lose ((h.reached c hc).mp hreached) hfree hne
    case isFalse hreached =>
      cases ht
      exact h.push hg hc (fun hmem => hreached ((h.reached c hc).mpr hmem)) hne

/-- Deliveries to tiles one after the other. -/
theorem foldlM_reach (hg : g.KeysApart) {spans : List Span} (hne : spans ≠ []) :
    ∀ {cells : List Cell} {s t : Cascade} {delivered : Deliveries}, cells.Nodup →
      (∀ c ∈ cells, g.contains c = true) → s.Ledger g delivered →
      cells.foldlM (Cascade.reach spans) s = some t → t.Ledger g (delivered.add spans cells) := by
  intro cells
  -- The induction is over the tiles to come; what was delivered grows on the way.
  induction cells with
  | nil =>
    rintro s t delivered - - h ⟨⟩
    exact h.congr fun _ _ => by simp [Deliveries.add]
  | cons c cells ih =>
    intro s t delivered hnodup hin h ht
    obtain ⟨hc, hnodup⟩ := List.nodup_cons.mp hnodup
    rw [List.foldlM_cons, Option.bind_eq_bind, Option.bind_eq_some_iff] at ht
    obtain ⟨u, hu, ht⟩ := ht
    rw [← Deliveries.add_cons hc]
    exact ih hnodup (fun d hd => hin d (by simp [hd])) (h.reach hg (hin c (by simp)) hne hu) ht

/-- Putting new tiles on the stack one after the other. -/
theorem foldl_push (hg : g.KeysApart) {spans : List Span} (hne : spans ≠ []) :
    ∀ {cells : List Cell} {s : Cascade} {delivered : Deliveries}, cells.Nodup →
      (∀ c ∈ cells, g.contains c = true ∧ c ∉ s.touched) → s.Ledger g delivered →
      (cells.foldl (fun s c => s.push ⟨c, spans⟩) s).Ledger g (delivered.add spans cells) := by
  intro cells
  induction cells with
  | nil => intro s delivered _ _ h; exact h.congr fun _ _ => by simp [Deliveries.add]
  | cons c cells ih =>
    intro s delivered hnodup hnew h
    obtain ⟨hc, hnodup⟩ := List.nodup_cons.mp hnodup
    obtain ⟨hin, hfree⟩ := hnew c (by simp)
    rw [← Deliveries.add_cons hc]
    refine ih hnodup (fun d hd => ⟨(hnew d (by simp [hd])).1, ?_⟩) (h.push hg hin hfree hne)
    rw [touched_push, List.mem_append, List.mem_singleton, not_or]
    exact ⟨(hnew d (by simp [hd])).2, by rintro rfl; exact hc hd⟩

end Ledger

end Cascade

end Battlemap
