import SchemeStyle.Command.Arguments
import SchemeStyle.Pool
import SchemeStyle.Style.Load

/-!
# Running a command

What a command does, as a value: its exit status and what it writes. Diagnostics go to the standard
output; files that could not be read, errors and the log go to the standard error. Some errors are
not answered, and end the program instead.
-/

namespace SchemeStyle

/-- What a command leaves behind. -/
structure CommandResult where
  status : Nat
  output : String := ""
  errors : String := ""
  deriving DecidableEq, Repr

/-- What a command depends on besides its arguments. -/
structure Environment where
  /-- The time of day, as the log shows it. -/
  time : String
  files : FileView
  /-- What style files are read with. -/
  yaml : YamlReader
  /-- Which of the workers goes on next where there are many. -/
  schedule : Schedule
  /-- The number of levels that a value may be nested to be shown, beyond what any scalar needs. -/
  room : Nat

/-- Why a command ends the program. -/
inductive ProgramError where
  | config (error : ConfigError)
  | run (error : RunError)
  /-- The report has a number that cannot be written. -/
  | report (error : ShowError)
  deriving Repr

/-- The words of a report. -/
def ProgramError.message : ProgramError → String
  | config error => error.message
  | run error => error.message
  | report error => error.message

/-- What the log says about one file. -/
def FileResult.log (r : FileResult) : List String :=
  let stopped := r.stopped?.toList.map fun e ↦ s!"Stopped linting {r.path}: {e.message}"
  let unread := r.error?.toList.map fun e ↦ s!"Could not read {r.path}: {e.message}"
  s!"Linting {r.path}" :: stopped ++ unread

namespace Command

/-- A line of the log. -/
def logLine (time level message : String) : String :=
  s!"{time} [{level}] {message}"

/-- What the log says about the search for files. -/
def searchLog (files : FileView) (extensions : List String) (paths : List Path) : List String :=
  paths.filterMap fun p ↦
    match files.filesBelow? p with
    | .ok (some below) =>
      some s!"Found {(selectFiles extensions p below).length} files under {p.toText}"
    | _ => none

/-- What the log says about a run. -/
def runLog (style : Style) (files : FileView) (paths : List Path) (run : RunResult) :
    List String :=
  let failed := if run.failed then "True" else "False"
  searchLog files style.extensions paths ++ run.files.flatMap FileResult.log ++
    [s!"Linted {run.files.length} files, failed={failed}"]

/-- Lints files under a style and reports the result. The log is written on demand. -/
def report (env : Environment) (style : Style) (a : Arguments) :
    Except ProgramError CommandResult := do
  let paths := a.files.map Path.ofText
  let run ← (lintPaths style env.files env.schedule a.jobs paths).mapError .run
  let ds := run.diagnostics
  let rendered ← (render longestInteger a.json ds).mapError .report
  let unread := run.files.filterMap fun r ↦ r.error?.map fun e ↦ s!"{r.path}: {e.message}"
  let debug := (runLog style env.files paths run).map (logLine env.time "DEBUG")
  let info := [logLine env.time "INFO" s!"{run.files.length} files, {ds.length} diagnostics"]
  return {
    status := run.exitStatus
    output := if rendered.isEmpty then "" else rendered ++ "\n"
    errors := unlines (if a.verbose then debug ++ unread ++ info else unread) }

/-- What a command does that does not fit. -/
def refuse (e : UsageError) : CommandResult where
  status := 2
  errors := usageText ++ unlines [s!"{programName}: error: {e.message}"]

/-- The style that a command asks for. -/
def style (env : Environment) (a : Arguments) : Except ConfigError Style :=
  match a.config? with
  | none => .ok .standard
  | some config => Style.load env.files env.yaml env.room (Path.ofText config).toText

/-- Lints what the arguments ask for. A style file that cannot be used is reported; an error that is
not answered ends the program. -/
def lintArguments (env : Environment) (a : Arguments) : Except ProgramError CommandResult :=
  if a.files.isEmpty then .ok { status := 0, output := briefUsageText }
  else if a.jobs < 1 then .ok (refuse .tooFewJobs)
  else
    match style env a with
    | .ok style => report env style a
    | .error e =>
      if e.isAnswered then .ok { status := 2, errors := unlines [s!"{programName}: {e.message}"] }
      else .error (.config e)

/-- Runs a command with the given arguments. -/
def run (env : Environment) (texts : List String) : Except ProgramError CommandResult :=
  match ofArguments texts with
  | .error e => .ok (refuse e)
  | .ok .help => .ok { status := 0, output := helpText }
  | .ok .version => .ok { status := 0, output := versionText }
  | .ok (.lint a) => lintArguments env a

end Command

end SchemeStyle
