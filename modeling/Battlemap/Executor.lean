/-!
# `Battlemap.Executor`: how many workers share a job

A job is one task per item. The tasks of a job do not see one another,
so its result is the same for any number of workers, and the number is
all that there is to an executor. The phases of a build are jobs over its
tiles. They are written as maps over arrays of tiles, since each of them
turns one kind of tile into the next, and take no executor.
-/

set_option autoImplicit false

namespace Battlemap

/-- Who carries out a job. -/
inductive Executor where
  /-- One worker. -/
  | sequential
  /-- Some workers, one at least. -/
  | workers (count : Nat)
  /-- As many workers as the machine has processors. -/
  | machine
deriving DecidableEq, Repr

namespace Executor

/-- The number of workers, if it does not depend on the machine. -/
def count? : Executor → Option Nat
  | sequential => some 1
  | workers count => some (max count 1)
  | machine => none

/-- The items after the task of each, which sees its place and itself. No phase of a build goes
through here: a phase whose task leaves its place alone is `Array.map`, which this is for every
executor. -/
def forEach {α : Type} (_ : Executor) (items : Array α) (task : Nat → α → α) : Array α :=
  items.mapIdx task

end Executor

end Battlemap
