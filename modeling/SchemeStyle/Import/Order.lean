/-!
# The order of imports

An import id is a sigil, its first character, and components divided by dots, as in `:1.2.3`. Ids
are ordered by sigil first; then component by component, a shorter component before a longer one
and components of one length by their text, so that numerals written without leading zeros compare
as numbers; an id that runs out of components comes first. Imported names are plain text and have
to increase strictly.
-/

namespace SchemeStyle

/-! ### Keys of ids -/

/-- What an id is compared by. -/
structure IdKey where
  /-- The first character, if there is one. -/
  sigil : Option Char
  /-- The components, at least one, each with its length in front. -/
  parts : List (Nat × List Char)
  deriving DecidableEq, Repr

namespace IdKey

/-- The key of an id. -/
def ofId (id : String) : IdKey where
  sigil := id.toList.head?
  parts := (id.toList.tail.splitOn '.').map fun part ↦ (part.length, part)

/-- Components compare by length, then by text. -/
def comparePart (a b : Nat × List Char) : Ordering :=
  (compare a.1 b.1).then (compare a.2 b.2)

instance : Ord IdKey where
  compare a b := (compare a.sigil b.sigil).then (a.parts.compareLex comparePart b.parts)

end IdKey

/-! ### The two orders -/

/-- Whether an id may follow another. Anything may follow the empty id, which stands for none. -/
def idsInOrder (last current : String) : Bool :=
  last.isEmpty || (compare (IdKey.ofId last) (IdKey.ofId current)).isLE

/-- Whether an imported name may follow another: it has to be greater, by code point. -/
def namesInOrder (last current : String) : Bool :=
  decide (last < current)

end SchemeStyle
