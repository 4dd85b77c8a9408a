import SchemeStyle.Lint

/-!
# One linter for many lines

A linter is made once for a file and then called for one line after the other. While it scans a line
it keeps what it has to remember of it in registers of its own, and these outlive the line. Each
call starts with what the calls before have left there: a call forgets what was found and takes its
line, the scan of a line of code resets where it stands, the character before and the start of the
word, and nothing ever resets the start of the operator. When nesting leaves its bounds, all of them
stay as they are in the midst of the line.

A `LineLinter` is such a linter, the state of its file next to its registers. It makes the checks of
a line as `lintLine` makes them, out of the registers: its words and operators are not collected,
but cut out of the line, from where they start up to the character at hand.
-/

namespace SchemeStyle

/-! ### Registers -/

/-- Where in the syntax a linter stands. -/
inductive Phase where
  | indent
  | code
  /-- In the operator of a form. -/
  | operator
  | string
  /-- Behind the semicolon that starts a comment. -/
  | comment
  /-- Behind the second semicolon of a comment. -/
  | marker
  deriving DecidableEq, Repr

/-- The phase of a scan in the mode. -/
def Mode.phase : Mode → Phase
  | .indent => .indent
  | .code => .code
  | .operator _ => .operator
  | .string => .string

/-- What a linter keeps besides the state of its file. -/
structure Registers where
  /-- What was found on the line so far. -/
  found : List Finding := []
  /-- The line, its newline included. -/
  line : List Char := []
  phase : Phase := .indent
  /-- The character before, if there is one on this line. -/
  prev : Option Char := none
  /-- Where the last word starts. -/
  wordStart : Nat := 0
  /-- Where the last operator starts. -/
  operatorStart : Nat := 0
  deriving DecidableEq, Repr

namespace Registers

/-- The characters of the line from an index up to another one. -/
def cut (r : Registers) (start stop : Nat) : Token :=
  ⟨start, ((r.line.take stop).drop start).reverse⟩

/-- The mode at an index of the line. A comment is not read in any mode. -/
def mode (r : Registers) (index : Nat) : Mode :=
  match r.phase with
  | .indent => .indent
  | .code | .comment | .marker => .code
  | .operator => .operator (r.cut r.operatorStart index)
  | .string => .string

/-- The cursor at an index of the line. The loop over the line keeps the index itself, and whether
the next character is escaped or comes behind a gap. -/
def cursor (r : Registers) (index : Nat) (escaped gap : Bool) : Cursor where
  index := index
  mode := r.mode index
  prev := r.prev
  escaped := escaped
  gap := gap
  word := r.cut r.wordStart index

/-- The registers at the start of a scan. -/
def reset (r : Registers) (inString : Bool) : Registers :=
  { r with phase := if inString then .string else .indent, prev := none, wordStart := 0 }

/-- The registers after the character at an index, which led to the mode. -/
def advance (r : Registers) (index : Nat) (mode : Mode) (c : Char) : Registers :=
  { r with
    phase := mode.phase
    prev := some c
    wordStart := if mode = .code ∧ r.prev = some ' ' ∧ c ≠ ' ' then index else r.wordStart
    operatorStart :=
      match mode with
      | .operator token => token.start
      | _ => r.operatorStart }

/-- The registers at a delimiter that took the nesting out of its bounds. An opening one is noticed
only when an operator is expected behind it. -/
def stop (r : Registers) (index : Nat) (e : NestingError) : Registers :=
  { r with
    phase := if e = .unmatched then .code else .operator
    operatorStart := if e = .unmatched then r.operatorStart else index + 1 }

end Registers

/-! ### Calls -/

/-- A linter: the state of a file, and registers. -/
structure LineLinter where
  state : State := {}
  registers : Registers := {}
  deriving DecidableEq, Repr

/-- How a call ends: what it makes of the linter, and the error that stopped it. -/
structure Call where
  linter : LineLinter
  error? : Option (Nat × NestingError) := none
  deriving DecidableEq, Repr

/-- What the caller sees of a call. -/
def Call.outcome (call : Call) : Outcome where
  state := call.linter.state
  findings := call.linter.registers.found
  error? := call.error?

namespace LineLinter

/-- The linter after it has found something. -/
def report (l : LineLinter) (found : List Finding) : LineLinter where
  state := { l.state with flagged := l.state.flagged || !found.isEmpty }
  registers := { l.registers with found := l.registers.found ++ found }

/-- Reads the characters of the line from an index on. -/
def scanFrom (style : Style) (aligned : Bool) (index : Nat) (escaped gap : Bool) (l : LineLinter) :
    List Char → Call
  | [] => { linter := l }
  | c :: cs =>
    let r := l.registers
    if r.phase = .comment ∧ c = ';' then
      scanFrom style aligned (index + 1) false gap
        { l with registers := { r with phase := .marker, prev := some c } } cs
    else if r.phase = .comment ∨ r.phase = .marker then
      { linter := l.report (commentFindings.afterMarker index c cs) }
    else
      let cur := r.cursor index escaped gap
      let s := step style aligned cur c l.state
      let l := LineLinter.report { l with state := s.state } s.findings
      match s.next with
      | .go mode =>
        scanFrom style aligned (index + 1) (c == '\\' && !escaped) (cur.gapAfter c)
          { l with registers := l.registers.advance index mode c } cs
      | .comment =>
        scanFrom style aligned (index + 1) false (cur.gapAfter c)
          { l with registers := { l.registers with phase := .comment, prev := some c } } cs
      | .stop e =>
        { linter := { l with registers := l.registers.stop index e }, error? := some (index, e) }

/-- Reads the line in the registers, which is given without its newline: as a comment line or as
code. -/
def readLine (style : Style) (l : LineLinter) (content : List Char) : Call :=
  if content.head? = some ';' ∧ ¬l.state.inString then
    { linter := l.report (tabFindings 0 content ++ commentLineFindings l.state.line content) }
  else
    scanFrom style (style.aligns content) 0 false false
      { l with registers := l.registers.reset l.state.inString } l.registers.line

/-- Checks the line in the registers, which is given without its newline. -/
def checkLine (style : Style) (l : LineLinter) (content : List Char) : Call :=
  let st := l.state
  if isBlankLine content then
    let o := lintBlankLine st
    { linter := LineLinter.report { l with state := o.state } o.findings }
  else
    let l := LineLinter.report { l with state := { st with blanks := 0 } }
      (extentFindings style content)
    l.readLine style content

/-- Checks a line, given without the newline that ends it. The line is counted even if its nesting
leaves its bounds. -/
def lintLine (style : Style) (l : LineLinter) (content : List Char) : Call :=
  let call := checkLine style
    { l with registers := { l.registers with found := [], line := content ++ ['\n'] } } content
  let st := call.linter.state
  { call with linter := { call.linter with state := { st with line := st.line + 1 } } }

/-- Checks lines in a row, whatever happens on them: what the caller sees of each, and the linter
after them. -/
def lintLines (style : Style) (l : LineLinter) : List (List Char) → List Outcome × LineLinter
  | [] => ([], l)
  | content :: rest =>
    let call := l.lintLine style content
    let (outcomes, last) := lintLines style call.linter rest
    (call.outcome :: outcomes, last)

end LineLinter

end SchemeStyle
