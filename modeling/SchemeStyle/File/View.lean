import SchemeStyle.File.Path
import SchemeStyle.Text.Quoted

/-!
# What a run asks of files

A run reads plain files and searches directories for them, and it asks nothing else of the files
around it. Either may be refused by the system. A path under which nothing can be found is no
directory; any other refusal while a path is looked at ends the search.
-/

namespace SchemeStyle

/-- Why the system refuses a path: the number of the error, and its words. -/
structure FileError where
  number : Nat
  /-- The words of a report. -/
  message : String
  deriving DecidableEq, Repr

namespace FileError

/-- There is nothing under the path. -/
def absent : FileError := ⟨2, "No such file or directory"⟩

/-- What is under the path may not be read, or a directory on the way may not be searched. -/
def denied : FileError := ⟨13, "Permission denied"⟩

/-- The path leads through a plain file. -/
def notDirectory : FileError := ⟨20, "Not a directory"⟩

/-- A directory is to be read as a file. -/
def isDirectory : FileError := ⟨21, "Is a directory"⟩

/-- The path, or a name in it, is longer than any may be. -/
def nameTooLong : FileError := ⟨36, "File name too long"⟩

/-- Whether the error counts as there being nothing under a path that is looked at. -/
def isAbsence (e : FileError) : Bool := [2, 9, 20, 40].contains e.number

end FileError

/-- Why a search comes to no end. -/
inductive SearchError where
  /-- A path cannot be looked at. -/
  | refused (path : String) (error : FileError)
  /-- Directories are nested too deep. -/
  | tooDeep
  deriving DecidableEq, Repr

/-- The words of a report. -/
def SearchError.message : SearchError → String
  | refused path error => s!"[Errno {error.number}] {error.message}: {quoted path}"
  | tooDeep => "maximum recursion depth exceeded"

/-- What a run asks of the files around it, whatever holds them: the bytes of a plain file, and
whether a path is a directory, with the plain files below it, at any depth, by the names on the way
to them from there. -/
structure FileView where
  read : String → Except FileError (List UInt8)
  filesBelow? : Path → Except SearchError (Option (List (List String)))

end SchemeStyle
