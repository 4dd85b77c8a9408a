/-!
# Style violations

The rules of the style guide, one constructor for each way to break one, and the single place
that words them for a reader. The checks themselves only ever name a violation; what it is called
in a report is decided here.
-/

namespace SchemeStyle

/-- One way to break the style guide, with the data that its report quotes. -/
inductive Violation where
  /-- A blank line that follows another blank line. -/
  | blankLines
  /-- A line of `length` characters where `limit` are allowed. -/
  | tooLong (length limit : Nat)
  /-- A line that ends in a space. -/
  | trailingSpace
  /-- A tab character anywhere. -/
  | tab
  /-- A comment line that starts with more than three semicolons. -/
  | semicolons
  /-- A comment line with three semicolons that is not the first line of the file. -/
  | banner
  /-- A comment line whose semicolons are not followed by a space. -/
  | missingSpaceAfterSemicolon
  /-- A comment after code whose semicolons are not followed by a space. -/
  | expectedSpaceAfterSemicolon
  /-- A comment that touches the code before it. -/
  | expectedSpaceBeforeSemicolon
  /-- Two spaces in a row between two pieces of code. -/
  | twoSpaces
  /-- A line that does not start where the enclosing form puts it. -/
  | indentation
  /-- An opening delimiter that touches what is before it. -/
  | expectedSpaceBefore (opener : Char)
  /-- A closing delimiter after a space. -/
  | unexpectedSpaceBefore (closer : Char)
  /-- A closing delimiter of a wrapper form that does not start its line. -/
  | wrapperCloser (closer : Char)
  /-- An import id that sorts before the one above it. -/
  | idOrder (last current : String)
  /-- An imported name that does not sort after the one before it. -/
  | nameOrder (last current : String)
  deriving DecidableEq, Repr

/-- The words of a report. -/
def Violation.message : Violation → String
  | blankLines => "multiple blank lines"
  | tooLong length limit => s!"line too long: {length} > {limit}"
  | trailingSpace => "trailing whitespace"
  | tab => "illegal character '\\t'"
  | semicolons => "too many semicolons"
  | banner => "';;;' only allowed on first line copyright"
  | missingSpaceAfterSemicolon => "missing space after ';'"
  | expectedSpaceAfterSemicolon => "expected space after ';'"
  | expectedSpaceBeforeSemicolon => "expected space before ';'"
  | twoSpaces => "unexpected two spaces in a row"
  | indentation => "incorrect indentation"
  | expectedSpaceBefore opener => s!"expected space before '{opener}'"
  | unexpectedSpaceBefore closer => s!"unexpected space before '{closer}'"
  | wrapperCloser closer => s!"expected '{closer}' at start of line for wrapper"
  | idOrder last current => s!"incorrect import id ordering: {last} > {current}"
  | nameOrder last current => s!"incorrect import name ordering: {last} > {current}"

end SchemeStyle
