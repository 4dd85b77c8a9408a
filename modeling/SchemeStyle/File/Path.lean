/-!
# Paths

A path as it is shown and sorted: the names on the way to a file, without the empty ones and those
that stay in place. Ways back to the parent are kept, since they cannot be undone without looking at
the files.
-/

namespace SchemeStyle

/-- The names in a text between its slashes, without the empty ones. -/
def slashNames (s : String) : List String :=
  ((s.toList.splitOn '/').filter fun piece ↦ !piece.isEmpty).map String.ofList

/-- Whether a path has a null character. The system cannot be asked for such a path. -/
def hasNull (path : String) : Bool := path.toList.contains '\x00'

/-- A path relative to a root: the working directory, or, if the root is not empty, the root of all
files. -/
structure Path where
  /-- The slashes at the start of an absolute path: one, or two if there are exactly two. -/
  root : String := ""
  names : List String
  deriving DecidableEq, Repr

namespace Path

/-- The root of a path. -/
def rootOf (s : String) : String :=
  match (s.toList.takeWhile (· == '/')).length with
  | 0 => ""
  | 2 => "//"
  | _ => "/"

/-- The path that a text names. -/
def ofText (s : String) : Path where
  root := rootOf s
  names := (slashNames s).filter (· != ".")

/-- The text of a path. A path without names is a dot. -/
def toText (p : Path) : String :=
  if p.root.isEmpty && p.names.isEmpty then "."
  else p.root ++ "/".intercalate p.names

/-- A path further down. -/
def descend (p : Path) (names : List String) : Path :=
  { p with names := p.names ++ names }

/-- What paths are sorted by: their root, if they have one, and their names. -/
def sortKey (p : Path) : List String :=
  if p.root.isEmpty then p.names else p.root :: p.names

/-- The extension of a file name: its text from the last dot on, unless that dot is its first or
its last character. -/
def extensionOf (name : List Char) : List Char :=
  let reversed := name.reverse
  let tail := reversed.takeWhile (· != '.')
  match reversed.dropWhile (· != '.') with
  | [] => []
  | _ :: stem => if stem.isEmpty || tail.isEmpty then [] else '.' :: tail.reverse

/-- The extension of a path: that of its last name. -/
def extension (p : Path) : String :=
  match p.names.getLast? with
  | some name => String.ofList (extensionOf name.toList)
  | none => ""

end Path

end SchemeStyle
