/-!
# `Battlemap.Text.CharRanges`: classes of characters

A class of characters is a table of the ranges of their code points. The
ranges of a table are sorted and do not touch, so a class has one table.
-/

set_option autoImplicit false

namespace Battlemap

/-- Ranges of code points, both ends included. -/
abbrev CharRanges := Array (Nat × Nat)

/-- Whether a character lies in one of the ranges. -/
def CharRanges.contains (ranges : CharRanges) (c : Char) : Bool :=
  ranges.any fun (low, high) => low ≤ c.toNat && c.toNat ≤ high

end Battlemap
