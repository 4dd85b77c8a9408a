/-!
# Indentation flags

How the contents of a form are aligned is decided by three independent properties of its operator.
With none of them the operands line up with the operator, or with the first operand when that
stands on the operator's line.
-/

namespace SchemeStyle

/-- The indentation policy of an operator. -/
structure Flags where
  /-- The body stands two columns inside the opening delimiter, whatever shares its line. -/
  special : Bool := false
  /-- The contents are not indented at all. Honoured for forms that start a line only. -/
  wrapper : Bool := false
  /-- With `special`: operands and body are the same thing, so an operand on the operator's line
  sets the alignment of all of them. -/
  uniform : Bool := false
  deriving DecidableEq, Repr

namespace Flags

/-- The properties that either policy has. -/
def union (a b : Flags) : Flags where
  special := a.special || b.special
  wrapper := a.wrapper || b.wrapper
  uniform := a.uniform || b.uniform

instance : Union Flags := ⟨union⟩

/-- The policy of the same operator inside another form, where nothing is a wrapper. -/
def nested (a : Flags) : Flags :=
  { a with wrapper := false }

/-! ### Names of the properties -/

/-- Upper case as far as the names of the flags can tell: the ASCII letters, and the two letters
outside ASCII (long s and dotless i) whose upper case is an ASCII letter. No other character, and
no ligature, has an upper case that occurs in a name. -/
def upperLetter (c : Char) : Char :=
  if c = 'ſ' then 'S' else if c = 'ı' then 'I' else c.toUpper

/-- The flags that a name in any case stands for: one property, or none for `DEFAULT`. -/
def ofName? (name : String) : Option Flags :=
  let upper := name.toList.map upperLetter
  if upper = "DEFAULT".toList then some {}
  else if upper = "SPECIAL".toList then some { special := true }
  else if upper = "WRAPPER".toList then some { wrapper := true }
  else if upper = "UNIFORM".toList then some { uniform := true }
  else none

end Flags

end SchemeStyle
