import SchemeStyle.Flags
import SchemeStyle.Value.Text

/-!
# Flags by name

Flags are written as a list of names. The list comes from a settings file, so anything may stand
where a name, or the list itself, should.
-/

namespace SchemeStyle

/-- Why a value does not stand for flags. -/
inductive FlagError where
  /-- A text, or bytes, that are not the name of a flag. -/
  | unknown (name : Scalar)
  /-- Something that is neither a text nor bytes in place of a name. -/
  | notText (value : Value)
  /-- Something without parts in place of the list. -/
  | notList (value : Value)
  deriving Repr

/-- The words of a report. -/
def FlagError.message : FlagError → String
  | unknown name => s!"unknown indent flag {name.shown}"
  | notText value => s!"'{value.kind}' object has no attribute 'upper'"
  | notList value => s!"'{value.kind}' object is not iterable"

namespace Flags

/-- The flags that one name stands for. Bytes are never a name. -/
def ofNameValue : Value → Except FlagError Flags
  | .scalar (.text name) =>
    match ofName? name with
    | some flags => .ok flags
    | none => .error (.unknown (.text name))
  | .scalar (.bytes data) => .error (.unknown (.bytes data))
  | value => .error (.notText value)

/-- The flags that some names stand for together. The first value that is no name decides the
error. -/
def ofNames : List Value → Except FlagError Flags
  | [] => .ok {}
  | name :: rest => do
    let first ← ofNameValue name
    let others ← ofNames rest
    pure (first ∪ others)

/-- The parts of a value that may stand for names: the items of a collection, the keys of a mapping,
the characters of a text. -/
def nameValues? : Value → Option (List Value)
  | .list items => some items
  | .scalar (.text s) => some (s.toList.map fun c ↦ .scalar (.text (String.singleton c)))
  | .scalar (.bytes data) => some (data.map fun b ↦ .scalar (.int b.toNat))
  | .map entries => some (entries.map fun entry ↦ .scalar entry.1)
  | .set items => some (items.map .scalar)
  | .pair key value => some [key, value]
  | .scalar _ | .enclosing _ => none

/-- The flags that a value stands for. -/
def ofValue (value : Value) : Except FlagError Flags :=
  match nameValues? value with
  | some names => ofNames names
  | none => .error (.notList value)

end Flags

end SchemeStyle
