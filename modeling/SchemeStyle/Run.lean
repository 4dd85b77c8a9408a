import SchemeStyle.File.View
import SchemeStyle.Lint

/-!
# Linting files

Every file is linted by itself, with a state of its own. A file that cannot be read, or whose
nesting leaves its bounds, fails alone: the run goes on with the next one. A directory stands for
the files below it. Two things end a run before all files are linted: a path that cannot even be
looked at, and one with a null character, which no file can have.
-/

namespace SchemeStyle

/-! ### One file -/

/-- Why a file was not read to its end. -/
inductive ReadError where
  | file (error : FileError)
  | encoding (error : Utf8.Error)
  deriving DecidableEq, Repr

/-- The words of a report. -/
def ReadError.message : ReadError → String
  | file error => error.message
  | encoding error => s!"not valid UTF-8: {error.reason.message} at byte {error.start}"

/-- What linting a file yields. -/
structure FileResult where
  path : String
  diagnostics : List Diagnostic := []
  /-- Why the file was not read to its end. -/
  error? : Option ReadError := none
  /-- Why the file was not linted to its end. -/
  stopped? : Option NestingError := none
  deriving DecidableEq, Repr

/-- Whether anything about the file is wrong. -/
def FileResult.failed (r : FileResult) : Bool :=
  r.error?.isSome || !r.diagnostics.isEmpty

/-- Lints the lines that were read from a file. A line whose nesting leaves its bounds is the last
one to be looked at: what was found on it is kept, and the failure itself is reported after it. -/
def lintReading (style : Style) (path : String) (reading : Reading) : FileResult :=
  let report := lintLines style {} reading.lines
  match report.failure? with
  | some f =>
    { path := path
      diagnostics := report.diagnostics path ++ f.diagnostics path ++ [f.toDiagnostic path]
      stopped? := some f.error }
  | none =>
    { path := path
      diagnostics := report.diagnostics path
      error? := reading.error?.map .encoding }

/-- Lints the file under a path without null characters. -/
def lintFile (style : Style) (files : FileView) (path : String) : FileResult :=
  match files.read path with
  | .error e => { path := path, error? := some (.file e) }
  | .ok bytes => lintReading style path (readLines bytes)

/-- Why a run does not come to a result. -/
inductive RunError where
  | search (error : SearchError)
  /-- A path to be read has a null character. -/
  | nullCharacter
  deriving DecidableEq, Repr

/-- The words of a report. -/
def RunError.message : RunError → String
  | search error => error.message
  | nullCharacter => "embedded null byte"

/-- Lints what is under a path. A path with a null character cannot be opened. -/
def lintPath (style : Style) (files : FileView) (path : String) : Except RunError FileResult :=
  if hasNull path then .error .nullCharacter else .ok (lintFile style files path)

/-! ### Many files -/

/-- The files below a directory with one of the extensions, sorted by the names on the way to
them. -/
def selectFiles (extensions : List String) (directory : Path) (below : List (List String)) :
    List Path :=
  ((below.map directory.descend).filter fun p ↦ extensions.contains p.extension).mergeSort
    fun a b ↦ (compare a.sortKey b.sortKey).isLE

/-- What an argument stands for: itself, or, if it is a directory, the files that are selected below
it. -/
def expandPath (files : FileView) (extensions : List String) (p : Path) :
    Except SearchError (List Path) := do
  match ← files.filesBelow? p with
  | none => return [p]
  | some below => return selectFiles extensions p below

/-- The files that the arguments stand for, in the order of the arguments. -/
def expandPaths (files : FileView) (extensions : List String) (paths : List Path) :
    Except SearchError (List Path) := do
  return (← paths.mapM (expandPath files extensions)).flatten

/-- What linting some files has yielded so far. -/
structure RunResult where
  files : List FileResult := []
  /-- Whether anything about some file is wrong. -/
  failed : Bool := false
  deriving DecidableEq, Repr

namespace RunResult

/-- Adds the result of one more file. -/
def add (run : RunResult) (result : FileResult) : RunResult where
  files := run.files ++ [result]
  failed := run.failed || result.failed

/-- The exit status of a run. -/
def exitStatus (r : RunResult) : Nat := if r.failed then 1 else 0

/-- The diagnostics of all files, in their order. -/
def diagnostics (r : RunResult) : List Diagnostic := r.files.flatMap FileResult.diagnostics

end RunResult

/-- Lints files one after the other. -/
def lintInTurn (style : Style) (files : FileView) (paths : List String) :
    Except RunError RunResult :=
  paths.foldlM (fun run path ↦ return run.add (← lintPath style files path)) {}

end SchemeStyle
