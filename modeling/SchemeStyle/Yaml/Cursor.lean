/-!
# Places in a YAML text

YAML gives meaning to lines and columns, so a text is read through a cursor that counts both. The
text has plain newlines only; three further characters of Unicode end a line as well.
-/

namespace SchemeStyle.Yaml

/-! ### Characters -/

/-- Whether a character may occur in a text. Controls and the two noncharacters at the end of the
first plane may not. -/
def isAllowed (c : Char) : Bool :=
  let n := c.toNat
  n == 0x09 || n == 0x0A || n == 0x0D || (0x20 ≤ n && n ≤ 0x7E) || n == 0x85 ||
    (0xA0 ≤ n && n ≤ 0xFFFD) || 0x10000 ≤ n

/-- Whether a character ends a line. -/
def isBreak (c : Char) : Bool :=
  c == '\n' || c == '\x85' || c == '\u2028' || c == '\u2029'

/-- Whether a character is a space or a tab or ends a line. -/
def isSpace (c : Char) : Bool :=
  c == ' ' || c == '\t' || isBreak c

/-- Whether nothing, or a space, or the end of a line comes next. -/
def separates : Option Char → Bool
  | none => true
  | some c => isSpace c

/-- The character that a line break stands for inside a scalar. -/
def breakChar (c : Char) : Char :=
  if c = '\x85' then '\n' else c

/-- Whether a character may be part of the name of an anchor, of a tag handle or of a directive. -/
def isNameChar (c : Char) : Bool :=
  c.isAlphanum || c == '-' || c == '_'

/-! ### The cursor -/

/-- A place in a text: what follows it, and how many characters, lines and columns precede it. -/
structure Cursor where
  rest : List Char
  index : Nat := 0
  line : Nat := 0
  column : Nat := 0
  deriving DecidableEq, Repr

namespace Cursor

/-- The character at some distance. -/
def peek (c : Cursor) (distance : Nat) : Option Char := c.rest[distance]?

/-- The place after the next character. A byte order mark takes no column. -/
def next (c : Cursor) : Cursor :=
  match c.rest with
  | [] => c
  | ch :: rest =>
    if isBreak ch then ⟨rest, c.index + 1, c.line + 1, 0⟩
    else ⟨rest, c.index + 1, c.line, if ch = '\uFEFF' then c.column else c.column + 1⟩

/-- The place after some characters. -/
def skip (n : Nat) (c : Cursor) : Cursor := Nat.repeat next n c

/-- The characters that come next and have a property. -/
def run (p : Char → Bool) (c : Cursor) : List Char := c.rest.takeWhile p

/-- The place after the characters that come next and have a property. -/
def skipWhile (p : Char → Bool) (c : Cursor) : Cursor := c.skip (c.run p).length

/-- The place after the spaces that come next. -/
def skipSpaces (c : Cursor) : Cursor := c.skipWhile (· == ' ')

/-- The line break that comes next, as the character that it stands for, and the place after it. -/
def takeBreak? (c : Cursor) : Option (Char × Cursor) :=
  match c.rest with
  | [] => none
  | ch :: _ => if isBreak ch then some (breakChar ch, c.next) else none

/-- Whether three of the given character come next and nothing that would continue them: the mark
that starts or ends a document. -/
def atMark (mark : Char) (c : Cursor) : Bool :=
  c.rest.take 3 == [mark, mark, mark] && separates (c.peek 3)

/-- Whether a document starts or ends here. -/
def atDocumentMark (c : Cursor) : Bool := c.atMark '-' || c.atMark '.'

/-- Skips spaces and a comment, up to the end of the line or to whatever else comes first. -/
def skipComment (c : Cursor) : Cursor :=
  let c := c.skipSpaces
  match c.peek 0 with
  | some '#' => c.skipWhile fun ch ↦ !isBreak ch
  | _ => c

/-- Skips the rest of a line that may hold a comment and nothing else, and its break. -/
def skipLine? (c : Cursor) : Option Cursor :=
  let c := c.skipComment
  match c.takeBreak? with
  | some (_, c) => some c
  | none => if c.rest.isEmpty then some c else none

end Cursor

end SchemeStyle.Yaml
