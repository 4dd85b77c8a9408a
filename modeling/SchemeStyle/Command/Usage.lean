import SchemeStyle.Text.Quoted

/-!
# Usage

The options of the command line, what the program says about them, and what it says about arguments
that do not fit.
-/

namespace SchemeStyle

/-! ### Options -/

/-- An option of the command line. -/
inductive Opt where
  | help
  | config
  | json
  | jobs
  | verbose
  | version
  deriving DecidableEq, Repr

namespace Opt

/-- All spellings of the options. -/
def spellings : List (String × Opt) :=
  [("-h", help), ("--help", help), ("--config", config), ("--json", json), ("-j", jobs),
    ("--jobs", jobs), ("-v", verbose), ("--verbose", verbose), ("--version", version)]

/-- The option with this spelling. -/
def ofSpelling? (s : String) : Option Opt := spellings.lookup s

/-- Whether the option is followed by an argument. -/
def takesArgument : Opt → Bool
  | config | jobs => true
  | _ => false

/-- The option as messages call it: all its spellings. -/
def name (o : Opt) : String :=
  "/".intercalate ((spellings.filter fun spelling ↦ spelling.2 == o).map Prod.fst)

end Opt

/-! ### Errors -/

/-- Why arguments do not fit. -/
inductive UsageError where
  /-- An argument that several options start with. -/
  | ambiguous (argument : String) (spellings : List String)
  /-- An option at the end, or before another option, that takes an argument. -/
  | missingArgument (option : Opt)
  /-- An argument given to an option that takes none. -/
  | ignoredArgument (option : Opt) (argument : String)
  /-- An argument that is no integer, given to an option that takes one. -/
  | notInteger (option : Opt) (argument : String)
  /-- Arguments that nothing takes. -/
  | unrecognized (arguments : List String)
  /-- Fewer jobs than one. -/
  | tooFewJobs
  deriving DecidableEq, Repr

/-- The words of a report. -/
def UsageError.message : UsageError → String
  | ambiguous argument spellings =>
    s!"ambiguous option: {argument} could match " ++ ", ".intercalate spellings
  | missingArgument option => s!"argument {option.name}: expected one argument"
  | ignoredArgument option argument =>
    s!"argument {option.name}: ignored explicit argument {quoted argument}"
  | notInteger option argument =>
    s!"argument {option.name}: invalid int value: {quoted argument}"
  | unrecognized arguments => "unrecognized arguments: " ++ " ".intercalate arguments
  | tooFewJobs => "--jobs must be at least 1"

/-! ### Texts -/

/-- The name of the program. -/
def programName : String := "sicplint"

/-- The version of the program. -/
def programVersion : String := "0.1.0"

/-- A text of some lines, each with its newline. -/
def unlines (lines : List String) : String :=
  String.join (lines.map fun line ↦ line ++ "\n")

/-- The form of a command, as messages show it. -/
def usageText : String := unlines
  ["usage: sicplint [-h] [--config CONFIG] [--json] [-j JOBS] [-v] [--version]",
    "                [FILE ...]"]

/-- The form of a command in short. -/
def briefUsageText : String := unlines [s!"usage: {programName} FILE ..."]

/-- The name and the version of the program. -/
def versionText : String := unlines [s!"{programName} {programVersion}"]

/-- What the program says about itself. -/
def helpText : String := usageText ++ unlines
  ["",
    "Style checker for the SICP study notes",
    "",
    "positional arguments:",
    "  FILE                  Files or directories to lint",
    "",
    "options:",
    "  -h, --help            show this help message and exit",
    "  --config CONFIG       YAML file overriding style settings",
    "  --json                Output diagnostics as JSON lines",
    "  -j JOBS, --jobs JOBS  Lint this many files at once",
    "  -v, --verbose         Log progress to stderr",
    "  --version             show program's version number and exit",
    "",
    "Examples:",
    "    sicplint src/sicp/chapter-1.ss",
    "    sicplint --jobs 4 src notes"]

end SchemeStyle
