/-!
# Sets of characters

A set of characters that a standard gives by a table is written as the list of its runs of code
points.
-/

namespace SchemeStyle

/-- Runs of code points, each by its first and its last. -/
abbrev CodePoints := List (Nat × Nat)

namespace CodePoints

/-- Whether a character is in one of the runs. -/
def contains (runs : CodePoints) (c : Char) : Bool :=
  runs.any fun run ↦ run.1 ≤ c.toNat && c.toNat ≤ run.2

end CodePoints

end SchemeStyle
