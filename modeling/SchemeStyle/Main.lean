import Std.Time.DateTime.Timestamp
import SchemeStyle.Command.Outcome
import SchemeStyle.Yaml.Reader

/-!
# The program

The outer layer of the command line. It reads the arguments, fetches the files that they name, runs
the command on what was fetched and writes the result. Directories are not listed here: the names of
the files that may lie below them come from the standard input, one a line, as a search prints them.
-/

namespace SchemeStyle.Program

/-- What a path turned out to be. -/
inductive Found where
  | file (bytes : List UInt8)
  /-- Something is there, but it cannot be read as a plain file. -/
  | unreadable (error : FileError)
  /-- The path cannot be looked at. -/
  | refused (error : FileError)

/-- What was fetched. -/
structure Fetched where
  contents : List (String × Found) := []
  /-- The names of the files that may lie below a directory. -/
  listing : List Path := []

/-- The names on the way from a directory to a file below it. -/
def namesBelow? (directory file : Path) : Option (List String) :=
  if file.root = directory.root ∧ directory.names.isPrefixOf file.names then
    some (file.names.drop directory.names.length)
  else none

namespace Fetched

/-- What was found under a path. What was not fetched is not there. -/
def find (f : Fetched) (path : String) : Found :=
  (f.contents.lookup path).getD (.refused .absent)

/-- The bytes that were fetched from a path. -/
def read (f : Fetched) (path : String) : Except FileError (List UInt8) :=
  match f.find path with
  | .file bytes => .ok bytes
  | .unreadable e | .refused e => .error e

/-- Whether a path is a directory, if it can be looked at. What may not be read is taken to be a
plain file, since it does not tell what it is. -/
def isDirectory (f : Fetched) (path : String) : Except SearchError Bool :=
  match f.find path with
  | .file _ => .ok false
  | .unreadable e => .ok (e == .isDirectory)
  | .refused e => if e.isAbsence then .ok false else .error (.refused path e)

/-- The listed files below a path that turned out to be a directory. -/
def filesBelow? (f : Fetched) (p : Path) : Except SearchError (Option (List (List String))) := do
  if ← f.isDirectory p.toText then
    return some (← (f.listing.filterMap (namesBelow? p)).filterM fun names ↦
      return !(← f.isDirectory (p.descend names).toText))
  else return none

/-- What was fetched, as the files of a run. -/
def view (f : Fetched) : FileView := ⟨f.read, f.filesBelow?⟩

end Fetched

/-- An error of the system by its number, and its words unless those are known. -/
def fileError (number : Nat) (words : String) : FileError :=
  let known : List FileError := [.absent, .denied, .notDirectory, .isDirectory, .nameTooLong]
  (known.find? (·.number == number)).getD ⟨number, words⟩

/-- What an error says about a path. Errors of a path that is looked at have negative numbers, those
of a file that is opened positive ones. -/
def foundOfError (code : UInt32) (words : String) : Found :=
  if code.toNat < 0x80000000 then .unreadable (fileError code.toNat words)
  else .refused (fileError (0x100000000 - code.toNat) words)

/-- Reads the bytes of a file. -/
def fetch (path : String) : IO (String × Found) := do
  try
    return (path, .file (← IO.FS.readBinFile path).toList)
  catch
    | .alreadyExists _ code words | .otherError code words | .resourceBusy code words
    | .resourceVanished code words | .unsupportedOperation code words | .hardwareFault code words
    | .unsatisfiedConstraints code words | .illegalOperation code words
    | .protocolError code words | .timeExpired code words | .interrupted _ code words
    | .noFileOrDirectory _ code words | .invalidArgument _ code words
    | .permissionDenied _ code words | .resourceExhausted _ code words
    | .inappropriateType _ code words | .noSuchThing _ code words =>
      return (path, foundOfError code words)
    | e => return (path, .unreadable ⟨5, toString e⟩)

/-- The lines of the standard input. -/
partial def inputLines (input : IO.FS.Stream) : IO (List String) := do
  let line ← input.getLine
  if line.isEmpty then return []
  return String.ofList (lineContent line.toList) :: (← inputLines input)

/-- Fetches what a command names, and, if that includes a directory, the files listed below it. -/
def fetchFor (a : Arguments) : IO Fetched := do
  let named := (a.files ++ a.config?.toList).map Path.ofText
  let contents ← named.mapM fun p ↦ fetch p.toText
  let found : Fetched := { contents := contents }
  let directories := named.filter fun p ↦
    match found.isDirectory p.toText with
    | .ok directory => directory
    | .error _ => false
  if directories.isEmpty then return found
  let listing := (← inputLines (← IO.getStdin)).map Path.ofText
  let below := directories.flatMap fun p ↦
    (listing.filterMap (namesBelow? p)).map fun names ↦ (p.descend names).toText
  return { contents := contents ++ (← below.mapM fetch), listing := listing }

/-- The time of day, with two digits for each of its parts. -/
def timeOfDay : IO String := do
  let seconds := (← Std.Time.Timestamp.now).toSecondsSinceUnixEpoch.val.toNat % 86400
  let twoDigits (n : Nat) : String := if n < 10 then s!"0{n}" else toString n
  return ":".intercalate [twoDigits (seconds / 3600), twoDigits (seconds / 60 % 60),
    twoDigits (seconds % 60)]

end SchemeStyle.Program

open SchemeStyle SchemeStyle.Program in
/-- Runs the command with the arguments of the program. -/
def main (texts : List String) : IO UInt32 := do
  let fetched ← match Command.ofArguments texts with
    | .ok (.lint a) => fetchFor a
    | _ => pure {}
  let env : Environment := {
    time := ← timeOfDay
    files := fetched.view
    yaml := Yaml.reader
    schedule := fun _ ↦ 0
    room := 900 }
  match Command.run env texts with
  | .ok result =>
    IO.print result.output
    IO.eprint result.errors
    return UInt32.ofNat result.status
  | .error e =>
    IO.eprintln e.message
    return 1
