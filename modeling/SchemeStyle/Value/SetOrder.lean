import SchemeStyle.Value

/-!
# The order of a set

A set has no order of its own, and its elements are shown in the order of their places in a table. A
number goes to the place that its remainder by the size of the table gives, or from there to another
that is free; which places are tried depends on the number too. A set that holds anything but
numbers keeps the order in which it was written.
-/

namespace SchemeStyle

namespace Scalar

/-- What remainders of numbers are taken by before anything else, `2 ^ 61 - 1`. Modulo it, every
power of two has an inverse, so fractions have remainders too. -/
def placeModulus : Nat := Nat.pow 2 61 - 1

/-- The number that decides the place of a number, which equal numbers share. It is never `-1`. -/
def placeNumber? (s : Scalar) : Option Int := do
  let n ← match s with
    | .float (.infinity negative) => some (if negative then -314159 else 314159)
    | .float (.finite negative significand exponent) =>
      let n : Int := significand * Nat.pow 2 (exponent % 61).toNat % placeModulus
      some (if negative then -n else n)
    | s => (s.toInt?).map fun n ↦ n.tmod placeModulus
  some (if n = -1 then -2 else n)

end Scalar

/-- The size of the table of a set with some elements: a power of two, and more than twice their
number if there are five or more. -/
def tableSize (count : Nat) : Nat :=
  if count < 5 then 8 else Nat.pow 2 ((2 * count).log2 + 1)

/-- The free place for an element in a table of some size, of which some places are taken. From a
place on, nine more are tried in a row if the table is long enough; then the search goes on at
another place, where `spread` decides as long as it is not zero. -/
def freePlace (size : Nat) (taken : List Nat) : Nat → Nat → Nat → Nat
  | 0, place, _ => place
  | fuel + 1, place, spread =>
    let row := (List.range (if place + 9 < size then 10 else 1)).map (place + ·)
    match row.find? fun p ↦ !taken.contains p with
    | some p => p
    | none =>
      let spread := spread / 32
      freePlace size taken fuel ((place * 5 + 1 + spread) % size) spread

/-- The places of elements in a table, in the order in which they go there. -/
def placesOf (size : Nat) : List (Int × Scalar) → List (Nat × Scalar) → List (Nat × Scalar)
  | [], placed => placed
  | (n, s) :: rest, placed =>
    let place := (n % size).toNat
    let spread := (n % (Nat.pow 2 64 : Nat)).toNat
    let place := freePlace size (placed.map Prod.fst) (64 + size) place spread
    placesOf size rest (placed ++ [(place, s)])

/-- The elements of a set in the order in which they are shown. -/
def setOrder (items : List Scalar) : List Scalar :=
  match items.mapM fun s ↦ s.placeNumber?.map (·, s) with
  | some numbered =>
    let size := tableSize items.length
    let placed := placesOf size numbered []
    (List.range size).filterMap fun p ↦ placed.lookup p
  | none => items

end SchemeStyle
