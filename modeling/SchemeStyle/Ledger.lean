import SchemeStyle.Lint

/-!
# Keeping the accounts apart

A `State` tells of each open form whether it is a wrapper, and which import forms are open is one
value with all that goes with it. A `Ledger` keeps the same accounts apart: the expected columns of
the open forms are one list, the depths of the wrappers among them another one, the depths at which
the import forms began a third, and the last id and the last name of the imports stand by
themselves.

Each account is written where its event is noticed. A column is put down at the delimiter that opens
a form; whether the form is a wrapper, and whether an import form begins with it, is put down when
its operator ends; a name is put down when its word ends. A delimiter that closes a form takes the
depth of the form off every list that it ends, and the last id or name is forgotten with the form
that it belongs to. Nothing in a ledger keeps the accounts in step but the order of these events.
-/

namespace SchemeStyle

/-- What is known between two lines of a file, in accounts of their own. -/
structure Ledger where
  /-- The number of the next line. -/
  line : Nat := 1
  /-- Whether anything was found so far. -/
  flagged : Bool := false
  /-- How many lines in a row were blank. -/
  blanks : Nat := 0
  /-- Whether the last line ended inside a string. -/
  inString : Bool := false
  /-- Where the contents of the last opened form may also be aligned, if that form is quoted. -/
  quotedAlign : Option Nat := none
  /-- The expected columns, outermost first, from the one outside all forms on. -/
  stack : List Int := [0]
  /-- The depths of the open wrappers, outermost first. -/
  wrappers : List Nat := []
  /-- The depths at which the open import forms began, outermost first. -/
  importDepths : List Nat := []
  /-- The last import id. -/
  lastId : String := ""
  /-- The last imported name. -/
  lastName : String := ""
  deriving DecidableEq, Repr

namespace Ledger

instance : Inhabited Ledger := ⟨{}⟩

/-! ### Views -/

/-- The number of open forms. -/
def depth (l : Ledger) : Nat := l.stack.length - 1

/-- The column at which the next line is expected to start. -/
def expected (l : Ledger) : Int := l.stack.getLastD 0

/-- The innermost import form, told by the number of those that are open. There is none inside a
declaration. -/
def block (l : Ledger) : ImportBlock :=
  match l.importDepths.length with
  | 0 => .outside
  | 1 => .section
  | 2 => .imports
  | _ => .declaration

/-! ### Changes -/

/-- Moves the column at which the contents of the innermost form are expected. -/
def setExpected (column : Int) (l : Ledger) : Ledger :=
  { l with stack := l.stack.dropLast ++ [column] }

/-- Puts down that the innermost form is a wrapper. -/
def markWrapper (l : Ledger) : Ledger :=
  { l with wrappers := l.wrappers ++ [l.depth] }

/-- Opens a form whose contents are expected at the given column. The depth stays below `limit`. -/
def push (limit : Nat) (column : Int) (l : Ledger) : Except NestingError Ledger :=
  if l.depth + 1 < limit then .ok { l with stack := l.stack ++ [column] }
  else .error (.tooDeep limit)

/-- Closes the innermost form, which may be a wrapper. -/
def pop (l : Ledger) : Except NestingError Ledger :=
  if l.depth = 0 then .error .unmatched
  else
    .ok { l with
      stack := l.stack.dropLast
      wrappers :=
        if l.wrappers.getLast? = some l.depth then l.wrappers.dropLast else l.wrappers }

/-- Opens the next import form at the present depth. -/
def enterImports (l : Ledger) : Ledger :=
  { l with importDepths := l.importDepths ++ [l.depth] }

/-- Closes the innermost import form if it began at this depth. -/
def leaveImports (depth : Nat) (l : Ledger) : Option ImportBlock × Ledger :=
  if l.importDepths.getLast? = some depth then
    (some l.block,
      { l with
        importDepths := l.importDepths.dropLast
        lastId := if l.block = .imports then "" else l.lastId
        lastName := if l.block = .declaration then "" else l.lastName })
  else (none, l)

/-! ### Effects of one character -/

/-- Compares the first column of a line's text with the expected one. -/
def alignLine (index : Nat) (l : Ledger) : List Finding × Ledger :=
  if index = l.expected then ([], l)
  else if index = 0 ∧ l.depth = l.wrappers.length then ([], l.setExpected 0)
  else if l.quotedAlign = some index then
    ([], { l.setExpected index with quotedAlign := none })
  else ([⟨index, .indentation⟩], l)

/-- Takes an operator into account for the imports. -/
def importOperator (style : Style) (token : Token) (l : Ledger) : List Finding × Ledger :=
  let opened := style.importBlock token.text token.start
  match l.block with
  | .outside => if opened = .section then ([], l.enterImports) else ([], l)
  | .section => if opened = .imports then ([], l.enterImports) else ([], l)
  | .imports =>
    (findingIf (!idsInOrder l.lastId token.text) token.start (.idOrder l.lastId token.text),
      { l.enterImports with lastId := token.text })
  | .declaration => ([], l)

/-- Applies the operator of the innermost form once its token is complete. -/
def finishOperator (style : Style) (token : Token) (index : Nat) (followed : Bool) (l : Ledger) :
    List Finding × Ledger :=
  let flags := style.rules.lookup token.text token.start
  let marked := if flags.wrapper then l.markWrapper else l
  let aligned :=
    match bodyColumn? flags token index followed with
    | some column => marked.setExpected column
    | none => marked
  importOperator style token aligned

/-- Inside a declaration of imports, compares the word that ends here with the name before it. -/
def nameFindings (cur : Cursor) (l : Ledger) : List Finding :=
  if l.block = .declaration then
    findingIf (!cur.word.isBlank && !namesInOrder l.lastName cur.word.text) cur.word.start
      (.nameOrder l.lastName cur.word.text)
  else []

/-- Inside a declaration of imports, remembers the word that ends here. -/
def rememberName (cur : Cursor) (l : Ledger) : Ledger :=
  if l.block = .declaration ∧ ¬cur.word.isBlank then { l with lastName := cur.word.text } else l

/-- What one character does. -/
structure Step where
  findings : List Finding := []
  ledger : Ledger
  next : Next
  deriving DecidableEq, Repr

/-- The step with earlier findings put in front. -/
def Step.after (findings : List Finding) (s : Step) : Step :=
  { s with findings := findings ++ s.findings }

/-- Opens a form. -/
def openForm (style : Style) (cur : Cursor) (c : Char) (l : Ledger) : Step :=
  match l.push style.maxDepth (cur.index + 1) with
  | .error e => { ledger := l, next := .stop e }
  | .ok pushed =>
    let touching :=
      match cur.prev with
      | none => false
      | some p => !openerNeighbours.contains p
    let inherits := l.quotedAlign.isSome &&
      (cur.prev == none || cur.prev == some '(' || cur.prev == some '[')
    { findings := findingIf touching cur.index (.expectedSpaceBefore c)
      ledger :=
        { pushed with
          quotedAlign :=
            if cur.prev == some '\'' || inherits then some (cur.index + 1) else none }
      next := .go (.operator ⟨cur.index + 1, []⟩) }

/-- Closes a form, and the import form that began with it. -/
def closeForm (cur : Cursor) (c : Char) (l : Ledger) : Step :=
  let findings :=
    findingIf (cur.index != 0 && !l.wrappers.isEmpty && l.depth == l.wrappers.length) cur.index
        (.wrapperCloser c) ++
      findingIf (cur.prev == some ' ') cur.index (.unexpectedSpaceBefore c) ++
      nameFindings cur l
  match l.pop with
  | .error e => { findings := findings, ledger := l, next := .stop e }
  | .ok popped =>
    { findings := findings, ledger := (popped.leaveImports l.depth).2, next := .go .code }

/-- What a character of code does. `operator?` is the operator being read, if there is one. -/
def codeChar (style : Style) (cur : Cursor) (operator? : Option Token) (c : Char) (l : Ledger) :
    Step :=
  if c = '"' then
    { ledger := { l with inString := true }, next := .go .string }
  else if c = ';' then
    let (findings, finished) :=
      match operator? with
      | some token => finishOperator style token cur.index false l
      | none => ([], l)
    { findings :=
        findings ++ findingIf (cur.prev != some ' ') cur.index .expectedSpaceBeforeSemicolon
      ledger := finished
      next := .comment }
  else if c = '(' ∨ c = '[' then openForm style cur c l
  else if c = ')' ∨ c = ']' then closeForm cur c l
  else if c = ' ' ∨ c = '\n' then
    match operator? with
    | some token =>
      let (findings, finished) := finishOperator style token cur.index (c == ' ') l
      { findings := findings, ledger := finished, next := .go .code }
    | none =>
      { findings := nameFindings cur l, ledger := rememberName cur l, next := .go .code }
  else
    match operator? with
    | some token => { ledger := l, next := .go (.operator (token.push c)) }
    | none => { ledger := l, next := .go .code }

/-- What one character of a line does. `aligned` tells whether the start of the line is checked. -/
def step (style : Style) (aligned : Bool) (cur : Cursor) (c : Char) (l : Ledger) : Step :=
  let gap := findingIf (cur.gap && c != ' ' && c != ';') cur.index .twoSpaces
  let inner : Step :=
    match cur.mode with
    | .indent =>
      if c = ' ' then { ledger := l, next := .go .indent }
      else
        let (findings, l) := if aligned then alignLine cur.index l else ([], l)
        (codeChar style cur none c l).after findings
    | .code => (codeChar style cur none c l).after gap
    | .operator token => (codeChar style cur (some token) c l).after gap
    | .string =>
      if c = '"' ∧ ¬cur.escaped then
        { ledger := { l with inString := false }, next := .go .code }
      else { ledger := l, next := .go .string }
  inner.after (findingIf (c == '\t') cur.index .tab)

/-! ### Lines -/

/-- What reading a line yields. -/
structure Outcome where
  ledger : Ledger
  findings : List Finding := []
  error? : Option (Nat × NestingError) := none
  deriving DecidableEq, Repr

/-- The outcome with earlier findings put in front. -/
def Outcome.after (findings : List Finding) (o : Outcome) : Outcome :=
  { o with findings := findings ++ o.findings }

/-- Reads the characters of a line, its newline included, from the cursor on. -/
def scan (style : Style) (aligned : Bool) : Cursor → Ledger → List Char → Outcome
  | _, l, [] => { ledger := l }
  | cur, l, c :: cs =>
    let s := step style aligned cur c l
    match s.next with
    | .go mode => (scan style aligned (cur.advance mode c) s.ledger cs).after s.findings
    | .comment =>
      { ledger := s.ledger, findings := s.findings ++ commentFindings (cur.index + 1) cs }
    | .stop e => { ledger := s.ledger, findings := s.findings, error? := some (cur.index, e) }

/-- Checks a line that has some character other than a space. -/
def lintTextLine (style : Style) (l : Ledger) (content : List Char) : Outcome :=
  let l := { l with blanks := 0 }
  let inner :=
    if content.head? = some ';' ∧ ¬l.inString then
      { ledger := l
        findings := tabFindings 0 content ++ commentLineFindings l.line content }
    else scan style (style.aligns content) (.start l.inString) l (content ++ ['\n'])
  inner.after (extentFindings style content)

/-- Checks one line, given without the newline that ends it. -/
def lintLine (style : Style) (l : Ledger) (content : List Char) : Outcome :=
  let o : Outcome :=
    if isBlankLine content then
      { ledger := { l with blanks := l.blanks + 1 }
        findings := findingIf (!l.inString && l.blanks == 1) 0 .blankLines }
    else lintTextLine style l content
  { o with
    ledger :=
      { o.ledger with
        line := o.ledger.line + 1
        flagged := o.ledger.flagged || !o.findings.isEmpty } }

end Ledger

end SchemeStyle
