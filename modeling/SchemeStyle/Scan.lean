import SchemeStyle.Diagnostic
import SchemeStyle.Import.Order
import SchemeStyle.State
import SchemeStyle.Text.Blank

/-!
# Scanning a line of code

A line that is neither blank nor a comment line is read once, character by character. A `Cursor`
is what the scan remembers within the line; it is made afresh for every line. `step` says what one
character does to the state of the file, and `scan` runs it to the end of the line, to the first
semicolon in code, where the rest of the line is a comment, or to the first delimiter that takes
the nesting out of its bounds.
-/

namespace SchemeStyle

/-! ### The cursor -/

/-- A run of characters on the way to its end, last one first, and the index of its first. -/
structure Token where
  start : Nat
  chars : List Char := []
  deriving DecidableEq, Repr

namespace Token

/-- The run with one more character. -/
def push (t : Token) (c : Char) : Token := { t with chars := c :: t.chars }

/-- The text of the run. -/
def text (t : Token) : String := String.ofList t.chars.reverse

/-- Whether the run has no character but blank ones. -/
def isBlank (t : Token) : Bool := t.chars.all SchemeStyle.isBlank

end Token

/-- Where in the syntax the scan stands. -/
inductive Mode where
  /-- Among the spaces at the start of the line. -/
  | indent
  /-- In code. -/
  | code
  /-- In the token right after an opening delimiter, the operator of the form. -/
  | operator (token : Token)
  /-- In a string. -/
  | string
  deriving DecidableEq, Repr

/-- What the scan remembers of the line so far. -/
structure Cursor where
  /-- The index of the next character. -/
  index : Nat := 0
  mode : Mode
  /-- The character before, if there is one on this line. -/
  prev : Option Char := none
  /-- Whether the character before is a backslash that takes the next character's meaning. -/
  escaped : Bool := false
  /-- Whether the last characters are two or more spaces in code. -/
  gap : Bool := false
  /-- The characters since the last start of a word. -/
  word : Token := ⟨0, []⟩
  deriving DecidableEq, Repr

namespace Cursor

/-- The cursor at the start of a line. -/
def start (inString : Bool) : Cursor where
  mode := if inString then .string else .indent

/-- Whether spaces in a row count as a gap: they do in code, not in strings nor at the start of the
line. -/
def gapAfter (cur : Cursor) (c : Char) : Bool :=
  match cur.mode with
  | .indent | .string => cur.gap
  | .code | .operator _ =>
    (c == ' ' && cur.prev == some ' ') || (cur.gap && (c == ' ' || c == ';'))

/-- The cursor after a character that led to the given mode. A word starts at a character in code
that is preceded by a space and is none. -/
def advance (cur : Cursor) (mode : Mode) (c : Char) : Cursor where
  index := cur.index + 1
  mode := mode
  prev := some c
  escaped := c == '\\' && !cur.escaped
  gap := cur.gapAfter c
  word :=
    if mode = .code ∧ cur.prev = some ' ' ∧ c ≠ ' ' then ⟨cur.index, [c]⟩ else cur.word.push c

end Cursor

/-! ### Small checks -/

/-- The characters that may stand right before an opening delimiter. -/
def openerNeighbours : List Char := [' ', '#', '\'', '(', ',', '@', '[', '`']

/-- A finding at the index if the condition holds. -/
def findingIf (condition : Bool) (index : Nat) (violation : Violation) : List Finding :=
  if condition then [⟨index, violation⟩] else []

/-- The tabs of a text that starts at the given index. -/
def tabFindings (index : Nat) : List Char → List Finding
  | [] => []
  | c :: cs => findingIf (c == '\t') index .tab ++ tabFindings (index + 1) cs

/-- Checks what follows the first semicolon of a comment after code. The character after one or two
semicolons has to be a space, even where it is the end of the line. -/
def commentFindings (index : Nat) : List Char → List Finding
  | ';' :: c :: cs => afterMarker (index + 1) c cs
  | c :: cs => afterMarker index c cs
  | [] => []
where
  /-- The character after the semicolons, and the tabs from there on. -/
  afterMarker (index : Nat) (c : Char) (cs : List Char) : List Finding :=
    findingIf (c == '\t') index .tab ++
      findingIf (c != ' ') index .expectedSpaceAfterSemicolon ++ tabFindings (index + 1) cs

/-! ### Effects of one character -/

/-- Compares the first column of a line's text with the expected one. The text may also return to
column zero when all open forms are wrappers, and line up with a quoted form; either moves the
expected column. -/
def alignLine (index : Nat) (st : State) : List Finding × State :=
  if index = st.expected then ([], st)
  else if index = 0 ∧ st.allWrappers then ([], st.setExpected 0)
  else if st.quotedAlign = some index then
    ([], { st.setExpected index with quotedAlign := none })
  else ([⟨index, .indentation⟩], st)

/-- Takes an operator into account for the imports: the section form and the form of imports are
known by their operators, and inside the latter every operator is an id. -/
def importOperator (style : Style) (token : Token) (st : State) : List Finding × State :=
  match st.imports with
  | .outside =>
    if style.importBlock token.text token.start = .section then ([], st.enterImports) else ([], st)
  | .inSection _ =>
    if style.importBlock token.text token.start = .imports then ([], st.enterImports) else ([], st)
  | .inImports _ _ last =>
    let entered := st.enterImports
    (findingIf (!idsInOrder last token.text) token.start (.idOrder last token.text),
      { entered with imports := entered.imports.setLastId token.text })
  | .inDeclaration .. => ([], st)

/-- The column at which the contents of a form are expected, as far as its operator decides it.
`index` is the index of the character that ends the operator: a space, when something follows on
the same line. -/
def bodyColumn? (flags : Flags) (token : Token) (index : Nat) (followed : Bool) : Option Nat :=
  if followed then
    if flags.special && !flags.uniform then some (token.start + 1) else some (index + 1)
  else if flags.special then some (token.start + 1)
  else none

/-- Applies the operator of the innermost form once its token is complete. -/
def finishOperator (style : Style) (token : Token) (index : Nat) (followed : Bool) (st : State) :
    List Finding × State :=
  let flags := style.rules.lookup token.text token.start
  let marked := if flags.wrapper then st.markWrapper else st
  let aligned :=
    match bodyColumn? flags token index followed with
    | some column => marked.setExpected column
    | none => marked
  importOperator style token aligned

/-- Inside a declaration of imports, compares the word that ends here with the name before it.
There is no word where only blanks were collected. -/
def nameFindings (cur : Cursor) (st : State) : List Finding :=
  match st.imports with
  | .inDeclaration _ _ _ _ last =>
    findingIf (!cur.word.isBlank && !namesInOrder last cur.word.text) cur.word.start
      (.nameOrder last cur.word.text)
  | _ => []

/-- Inside a declaration of imports, remembers the word that ends here. -/
def rememberName (cur : Cursor) (st : State) : State :=
  if cur.word.isBlank then st
  else { st with imports := st.imports.setLastName cur.word.text }

/-- Where the scan goes after a character. -/
inductive Next where
  /-- On to the next character, in this mode. -/
  | go (mode : Mode)
  /-- Nowhere: the rest of the line is a comment. -/
  | comment
  /-- Nowhere: the nesting left its bounds. -/
  | stop (error : NestingError)
  deriving DecidableEq, Repr

/-- What one character does. -/
structure Step where
  findings : List Finding := []
  state : State
  next : Next
  deriving DecidableEq, Repr

namespace Step

/-- The step with earlier findings put in front. -/
def after (findings : List Finding) (s : Step) : Step :=
  { s with findings := findings ++ s.findings }

end Step

/-- Opens a form. The contents of a quoted form may also be aligned with the form itself, and so
may those of a form directly inside it. -/
def openForm (style : Style) (cur : Cursor) (c : Char) (st : State) : Step :=
  match st.push style.maxDepth (cur.index + 1) with
  | .error e => { state := st, next := .stop e }
  | .ok pushed =>
    let touching :=
      match cur.prev with
      | none => false
      | some p => !openerNeighbours.contains p
    let inherits := st.quotedAlign.isSome &&
      (cur.prev == none || cur.prev == some '(' || cur.prev == some '[')
    { findings := findingIf touching cur.index (.expectedSpaceBefore c)
      state :=
        { pushed with
          quotedAlign :=
            if cur.prev == some '\'' || inherits then some (cur.index + 1) else none }
      next := .go (.operator ⟨cur.index + 1, []⟩) }

/-- Closes a form, and the import form that began with it. -/
def closeForm (cur : Cursor) (c : Char) (st : State) : Step :=
  let findings :=
    findingIf (cur.index != 0 && !st.frames.isEmpty && st.allWrappers) cur.index
        (.wrapperCloser c) ++
      findingIf (cur.prev == some ' ') cur.index (.unexpectedSpaceBefore c) ++
      nameFindings cur st
  match st.pop with
  | .error e => { findings := findings, state := st, next := .stop e }
  | .ok popped =>
    { findings := findings, state := (popped.leaveImports st.depth).2, next := .go .code }

/-- What a character of code does. `operator?` is the operator being read, if there is one. -/
def codeChar (style : Style) (cur : Cursor) (operator? : Option Token) (c : Char) (st : State) :
    Step :=
  if c = '"' then
    { state := { st with inString := true }, next := .go .string }
  else if c = ';' then
    let (findings, finished) :=
      match operator? with
      | some token => finishOperator style token cur.index false st
      | none => ([], st)
    { findings :=
        findings ++ findingIf (cur.prev != some ' ') cur.index .expectedSpaceBeforeSemicolon
      state := finished
      next := .comment }
  else if c = '(' ∨ c = '[' then openForm style cur c st
  else if c = ')' ∨ c = ']' then closeForm cur c st
  else if c = ' ' ∨ c = '\n' then
    match operator? with
    | some token =>
      let (findings, finished) := finishOperator style token cur.index (c == ' ') st
      { findings := findings, state := finished, next := .go .code }
    | none =>
      { findings := nameFindings cur st, state := rememberName cur st, next := .go .code }
  else
    match operator? with
    | some token => { state := st, next := .go (.operator (token.push c)) }
    | none => { state := st, next := .go .code }

/-- What one character of a line does. `aligned` tells whether the start of the line is checked. -/
def step (style : Style) (aligned : Bool) (cur : Cursor) (c : Char) (st : State) : Step :=
  let gap := findingIf (cur.gap && c != ' ' && c != ';') cur.index .twoSpaces
  let inner : Step :=
    match cur.mode with
    | .indent =>
      if c = ' ' then { state := st, next := .go .indent }
      else
        let (findings, st) := if aligned then alignLine cur.index st else ([], st)
        (codeChar style cur none c st).after findings
    | .code => (codeChar style cur none c st).after gap
    | .operator token => (codeChar style cur (some token) c st).after gap
    | .string =>
      if c = '"' ∧ ¬cur.escaped then
        { state := { st with inString := false }, next := .go .code }
      else { state := st, next := .go .string }
  inner.after (findingIf (c == '\t') cur.index .tab)

/-! ### The scan -/

/-- What reading a line yields: the state after it, the findings in the order of the checks, and
the error that stopped it, with the index of the character at fault. -/
structure Outcome where
  state : State
  findings : List Finding := []
  error? : Option (Nat × NestingError) := none
  deriving DecidableEq, Repr

/-- The outcome with earlier findings put in front. -/
def Outcome.after (findings : List Finding) (o : Outcome) : Outcome :=
  { o with findings := findings ++ o.findings }

/-- Reads the characters of a line, its newline included, from the cursor on. -/
def scan (style : Style) (aligned : Bool) : Cursor → State → List Char → Outcome
  | _, st, [] => { state := st }
  | cur, st, c :: cs =>
    let s := step style aligned cur c st
    match s.next with
    | .go mode => (scan style aligned (cur.advance mode c) s.state cs).after s.findings
    | .comment =>
      { state := s.state, findings := s.findings ++ commentFindings (cur.index + 1) cs }
    | .stop e => { state := s.state, findings := s.findings, error? := some (cur.index, e) }

end SchemeStyle
