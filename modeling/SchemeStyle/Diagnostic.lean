import SchemeStyle.Number.Writing
import SchemeStyle.Text.Json
import SchemeStyle.Violation

/-!
# Findings and diagnostics

A check of one line yields *findings*: a violation at an index of that line. Placed in a file a
finding becomes a *diagnostic*, which counts lines and columns from one and carries the words of
the report. A diagnostic is what leaves the checker, so its numbers are unrestricted and its texts
may hold anything. A number that is too long to be written spoils the report that it is in.
-/

namespace SchemeStyle

/-- A violation at an index of the line under check, counted from zero. -/
structure Finding where
  index : Nat
  violation : Violation
  deriving DecidableEq, Repr

/-- One entry of a report. Lines and columns of a file count from one. -/
structure Diagnostic where
  file : String
  line : Int
  column : Int
  message : String
  deriving DecidableEq, Repr

namespace Diagnostic

/-- The diagnostic of a finding on the given line of a file. -/
def ofFinding (file : String) (line : Nat) (finding : Finding) : Diagnostic where
  file := file
  line := line
  column := finding.index + 1
  message := finding.violation.message

/-- The line of a report meant for people: place, colon, words. -/
def toLine (d : Diagnostic) : String :=
  s!"{d.file}:{d.line}:{d.column}: {d.message}"

/-- The numbers of a diagnostic as they are written. -/
def writeNumbers (limit? : Option Nat) (d : Diagnostic) : Except ShowError (String × String) := do
  return (← writeInteger limit? d.line, ← writeInteger limit? d.column)

/-- The line of a report meant for programs: a JSON object of the four parts, in this order. -/
def toJson (limit? : Option Nat) (d : Diagnostic) : Except ShowError String := do
  let (line, column) ← d.writeNumbers limit?
  return "\x7b\"file\": " ++ JsonString.encode d.file ++ ", \"line\": " ++ line ++
    ", \"column\": " ++ column ++ ", \"message\": " ++ JsonString.encode d.message ++ "\x7d"

end Diagnostic

/-- A report meant for people, one diagnostic a line, without a newline after the last. -/
def renderLines (ds : List Diagnostic) : String :=
  "\n".intercalate (ds.map Diagnostic.toLine)

/-- A report meant for programs, one JSON object a line, without a newline after the last. -/
def renderJson (limit? : Option Nat) (ds : List Diagnostic) : Except ShowError String := do
  return "\n".intercalate (← ds.mapM (Diagnostic.toJson limit?))

/-- A report in either form, if its numbers can be written. -/
def render (limit? : Option Nat) (json : Bool) (ds : List Diagnostic) : Except ShowError String :=
  if json then renderJson limit? ds
  else do
    ds.forM fun d ↦ discard (d.writeNumbers limit?)
    return renderLines ds

end SchemeStyle
