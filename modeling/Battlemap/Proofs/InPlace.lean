import Mathlib.Data.List.Nodup

/-!
# `Battlemap.Proofs.InPlace`: passes that change an array in place

A pass goes over some items and changes one entry of an array for each of them. An entry
that it does not come to stays as it is, and if no two items share a place then the entry of
each item is changed once, from what it was before the pass.
-/

set_option autoImplicit false

namespace Battlemap

/-- Steps that keep the size of an array keep it together. -/
theorem size_foldl {α β : Type} {step : Array β → α → Array β}
    (h : ∀ xs a, (step xs a).size = xs.size) (items : List α) (xs : Array β) :
    (items.foldl step xs).size = xs.size := by
  induction items generalizing xs with
  | nil => rfl
  | cons a items ih => rw [List.foldl_cons, ih, h]

section
variable {α β : Type} {place : α → Nat} {change : α → β → β} {items : List α}

/-- An entry at the place of no item stays. -/
theorem getElem?_foldl_modify_of_not_mem {p : Nat} (hp : p ∉ items.map place) (xs : Array β) :
    (items.foldl (fun xs a => xs.modify (place a) (change a)) xs)[p]? = xs[p]? := by
  induction items generalizing xs with
  | nil => rfl
  | cons a items ih =>
    rw [List.map_cons, List.mem_cons, not_or] at hp
    rw [List.foldl_cons, ih hp.2, Array.getElem?_modify, if_neg (Ne.symm hp.1)]

/-- The entry of an item that shares its place with no other one is changed once. -/
theorem getElem?_foldl_modify_of_mem (hnodup : (items.map place).Nodup) {a : α} (ha : a ∈ items)
    (xs : Array β) :
    (items.foldl (fun xs a => xs.modify (place a) (change a)) xs)[place a]?
      = xs[place a]?.map (change a) := by
  induction items generalizing xs with
  | nil => cases ha
  | cons b items ih =>
    rw [List.map_cons, List.nodup_cons] at hnodup
    rw [List.foldl_cons]
    rcases List.mem_cons.mp ha with rfl | ha
    · -- Its place does not come again.
      rw [getElem?_foldl_modify_of_not_mem hnodup.1, Array.getElem?_modify, if_pos rfl]
    · have hne : place b ≠ place a := fun h => hnodup.1 (h ▸ List.mem_map_of_mem ha)
      rw [ih hnodup.2 ha, Array.getElem?_modify, if_neg hne]

end

end Battlemap
