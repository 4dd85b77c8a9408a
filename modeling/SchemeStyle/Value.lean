import SchemeStyle.Calendar
import SchemeStyle.Number.Binary64

/-!
# Untyped settings

What a settings file holds before anyone has looked at it: scalars such as numbers, texts and dates,
and collections of values. A mapping keeps its entries in order and has every key once. Only scalars
are keys. A file may refer to a collection from inside itself; such a value is unfolded until the
collection is met again, and a mark stands where it is.
-/

namespace SchemeStyle

/-- A value without parts. -/
inductive Scalar where
  | null
  | bool (b : Bool)
  | int (n : Int)
  | float (x : Binary64)
  | text (s : String)
  | bytes (data : List UInt8)
  | date (d : Date)
  | moment (m : Moment)
  deriving DecidableEq, Repr

/-- A collection that is met inside itself, as far as a message can tell what it is. -/
inductive Enclosing where
  | list
  | map
  deriving DecidableEq, Repr

/-- A value of a settings file. -/
inductive Value where
  | scalar (s : Scalar)
  | list (items : List Value)
  | map (entries : List (Scalar × Value))
  | set (items : List Scalar)
  /-- A key with its value, where a list has entries of a mapping as its items. -/
  | pair (key value : Value)
  | enclosing (e : Enclosing)
  deriving Repr

instance : Inhabited Value := ⟨.scalar .null⟩

namespace Scalar

/-- The integer that a boolean or an integer counts as. -/
def toInt? : Scalar → Option Int
  | bool b => some (if b then 1 else 0)
  | int n => some n
  | _ => none

/-- Whether two keys are the same key of a mapping. Numbers are compared by their value, whatever
their kind, and a boolean counts as one or zero. Points in time are compared as such, whatever the
clocks that tell them. -/
def sameKey : Scalar → Scalar → Bool
  | null, null => true
  | text s, text t => s == t
  | bytes a, bytes b => a == b
  | date a, date b => a == b
  | moment a, moment b => a.sameInstant b
  | float x, float y => x.equals y
  | float x, k | k, float x =>
    match k.toInt? with
    | some n => x.equalsInt n
    | none => false
  | j, k =>
    match j.toInt?, k.toInt? with
    | some m, some n => m == n
    | _, _ => false

end Scalar

/-- Sets an entry of a mapping, where `same` tells which keys are the same. A key that is there
already keeps its place and its spelling. -/
def setEntry {α : Type} (same : Scalar → Scalar → Bool) (key : Scalar) (value : α) :
    List (Scalar × α) → List (Scalar × α)
  | [] => [(key, value)]
  | (k, v) :: rest =>
    if same k key then (k, value) :: rest else (k, v) :: setEntry same key value rest

namespace Value

/-- The mapping with the given entries, of which a later one replaces an earlier one. -/
def ofEntries (entries : List (Scalar × Value)) : Value :=
  .map (entries.foldl (fun map entry ↦ setEntry Scalar.sameKey entry.1 entry.2 map) [])

/-- Whether the value counts as nothing: null, false, zero, and whatever is empty. -/
def isEmpty : Value → Bool
  | scalar .null => true
  | scalar (.bool b) => !b
  | scalar (.int n) => n == 0
  | scalar (.float x) => x.isZero
  | scalar (.text s) => s.isEmpty
  | scalar (.bytes data) => data.isEmpty
  | scalar (.date _) | scalar (.moment _) => false
  | list items => items.isEmpty
  | map entries => entries.isEmpty
  | set items => items.isEmpty
  | pair _ _ | enclosing _ => false

end Value

end SchemeStyle
