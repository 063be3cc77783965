import Mathlib.Data.List.Basic

/-!
# `Battlemap.Proofs.Success`: when all steps of a computation succeed

A computation that can fail succeeds exactly if its steps do, one after
the other, each with what the ones before it gave.
-/

set_option autoImplicit false

namespace Battlemap

/-- Two computations in sequence succeed exactly if the first does, and the
second does with the value of the first. -/
theorem except_bind_eq_ok_iff {ε α β : Type} {x : Except ε α} {f : α → Except ε β} {b : β} :
    x >>= f = .ok b ↔ ∃ a, x = .ok a ∧ f a = .ok b := by
  cases x <;> simp [bind, Except.bind]

/-- A function has answers for a whole list exactly if it has each of
them. -/
theorem mapM_eq_some_iff {α β : Type} {f : α → Option β} {l : List α} {r : List β} :
    l.mapM f = some r ↔ l.map f = r.map some := by
  induction l generalizing r with
  | nil => cases r <;> simp
  | cons a l ih =>
    rw [List.mapM_cons]
    cases r with
    | nil => cases f a <;> simp [Option.bind_eq_some_iff]
    | cons c r =>
      cases hfirst : f a with
      | none => simp [hfirst]
      | some b => simp [hfirst, ← ih, Option.bind_eq_some_iff, and_comm]

end Battlemap
