import SchemeStyle.Scan
import SchemeStyle.Text.Lines

/-!
# Linting lines and texts

`lintLine` applies all checks to one line: length, white space and comment lines first, then, for a
line of code, the scan. A text is linted line by line; the first line whose nesting leaves its
bounds ends it.
-/

namespace SchemeStyle

/-! ### One line -/

/-- Checks the semicolons that start a comment line, at the given line of its file. -/
def commentLineFindings (line : Nat) (content : List Char) : List Finding :=
  let count := (content.takeWhile (· == ';')).length
  let marker :=
    if count > 3 then [⟨0, .semicolons⟩]
    else if count = 3 ∧ line ≠ 1 then [⟨0, .banner⟩]
    else []
  let space :=
    match content.dropWhile (· == ';') with
    | [] => []
    | c :: _ => findingIf (c != ' ') count .missingSpaceAfterSemicolon
  marker ++ space

/-- Whether a line, given without its newline, has no character but spaces. -/
def isBlankLine (content : List Char) : Bool :=
  content.all (· == ' ')

/-- Whether the start of a line is checked: not if the line ends in the mark of the style. -/
def Style.aligns (style : Style) (content : List Char) : Bool :=
  !style.noAlignMark.toList.isSuffixOf content

/-- The second blank line in a row is reported, except in a string. -/
def lintBlankLine (st : State) : Outcome where
  state := { st with blanks := st.blanks + 1 }
  findings := findingIf (!st.inString && st.blanks == 1) 0 .blankLines

/-- The checks of length and of the end of the line. -/
def extentFindings (style : Style) (content : List Char) : List Finding :=
  findingIf (style.maxColumns < content.length) (style.maxColumns - 1)
      (.tooLong content.length style.maxColumns) ++
    findingIf (content.getLast? == some ' ') (content.length - 1) .trailingSpace

/-- Checks a line that has some character other than a space. -/
def lintTextLine (style : Style) (st : State) (content : List Char) : Outcome :=
  let st := { st with blanks := 0 }
  let inner :=
    if content.head? = some ';' ∧ ¬st.inString then
      { state := st
        findings := tabFindings 0 content ++ commentLineFindings st.line content }
    else scan style (style.aligns content) (.start st.inString) st (content ++ ['\n'])
  inner.after (extentFindings style content)

/-- Checks one line, given without the newline that ends it. -/
def lintLine (style : Style) (st : State) (content : List Char) : Outcome :=
  let o := if isBlankLine content then lintBlankLine st else lintTextLine style st content
  { o with
    state :=
      { o.state with
        line := o.state.line + 1
        flagged := o.state.flagged || !o.findings.isEmpty } }

/-- A text that should be a line has no newline at its end. -/
inductive LineError where
  | unterminated
  deriving DecidableEq, Repr

/-- The words of a report. -/
def LineError.message : LineError → String
  | unterminated => "line must end with a newline"

/-- Checks one line, given with the newline that ends it. -/
def lintTerminated (style : Style) (st : State) (line : String) : Except LineError Outcome :=
  match lineContent? line.toList with
  | some content => .ok (lintLine style st content)
  | none => .error .unterminated

/-! ### Lines in a row -/

/-- A line whose nesting left its bounds. -/
structure Failure where
  /-- The number of the line. -/
  line : Nat
  /-- The index of the delimiter at fault. -/
  index : Nat
  error : NestingError
  /-- What was found on the line before. -/
  findings : List Finding
  deriving DecidableEq, Repr

/-- What linting lines in a row yields: the state after them, the findings of the lines that were
read to their end, each with its line number, and the line that stopped the run. -/
structure Report where
  state : State
  findings : List (Nat × Finding) := []
  failure? : Option Failure := none
  deriving DecidableEq, Repr

/-- Lints lines in a row, each given without its newline. -/
def lintLines (style : Style) : State → List (List Char) → Report
  | st, [] => { state := st }
  | st, content :: rest =>
    let o := lintLine style st content
    match o.error? with
    | some (index, e) =>
      { state := o.state, failure? := some ⟨st.line, index, e, o.findings⟩ }
    | none =>
      let report := lintLines style o.state rest
      { report with findings := o.findings.map (st.line, ·) ++ report.findings }

namespace Failure

/-- What was found on the failing line, as diagnostics of a file. -/
def diagnostics (file : String) (f : Failure) : List Diagnostic :=
  f.findings.map (Diagnostic.ofFinding file f.line)

/-- The failure itself as a diagnostic of a file. -/
def toDiagnostic (file : String) (f : Failure) : Diagnostic where
  file := file
  line := f.line
  column := f.index + 1
  message := f.error.message

end Failure

/-- The findings of a report as diagnostics of a file. -/
def Report.diagnostics (file : String) (r : Report) : List Diagnostic :=
  r.findings.map fun (line, finding) ↦ .ofFinding file line finding

/-! ### Texts -/

/-- Lints a text. -/
def lintText (style : Style) (text : String) : Report :=
  lintLines style {} (splitLines text.toList)

end SchemeStyle
