import SchemeStyle.File.View

/-!
# File trees

The files that a run can see, as a value: plain files with their bytes, and directories, each with
what may be done with it. An entry is found under the names on the way to it from the root of all
files. No two entries have the same names and nothing lies below a plain file; directories on the
way to an entry, or to the working directory, need no entry of their own.
-/

namespace SchemeStyle

/-- What can be found under a path. A directory that is not readable cannot be listed, and nothing
can be reached through one that is not searchable. -/
inductive Node where
  | file (bytes : List UInt8) (readable : Bool := true)
  | directory (readable : Bool := true) (searchable : Bool := true)
  deriving DecidableEq, Repr

namespace Node

/-- Whether this is a plain file. -/
def isFile : Node → Bool
  | file .. => true
  | directory .. => false

/-- Whether this is a directory that can be listed. -/
def isListable : Node → Bool
  | directory readable _ => readable
  | file .. => false

end Node

/-- The greatest number of bytes of a name. -/
def longestName : Nat := 255

/-- The greatest number of bytes of a path. -/
def longestPath : Nat := 4095

/-- Whether a file may have the name: it has no slash and no null character, is neither empty nor
one of the two names that every directory has, and is short enough. -/
def isFileName (name : String) : Bool :=
  name != "" && name != "." && name != ".." && !name.toList.contains '/' && !hasNull name &&
    name.utf8ByteSize ≤ longestName

/-- A node and the names on the way to it. -/
structure FileEntry where
  names : List String
  node : Node
  deriving DecidableEq, Repr

namespace FileEntry

/-- Whether two entries can be in one tree. -/
def Compatible (a b : FileEntry) : Prop :=
  a.names ≠ b.names ∧ ¬(a.node.isFile ∧ a.names <+: b.names) ∧
    ¬(b.node.isFile ∧ b.names <+: a.names)

instance (a b : FileEntry) : Decidable (Compatible a b) := by
  unfold Compatible; infer_instance

/-- Whether an entry can be in a tree with the working directory: it has a name, and the working
directory is not below a plain file. -/
def Fits (working : List String) (entry : FileEntry) : Prop :=
  entry.names.all isFileName ∧ ¬(entry.node.isFile ∧ entry.names <+: working)

instance (working : List String) (entry : FileEntry) : Decidable (Fits working entry) := by
  unfold Fits; infer_instance

end FileEntry

/-- The files that a run can see. -/
structure FileTree where
  /-- The names on the way from the root to the working directory. -/
  working : List String := []
  entries : List FileEntry := []
  named : working.all isFileName := by decide
  compatible : entries.Pairwise FileEntry.Compatible := by decide
  fits : ∀ entry ∈ entries, entry.Fits working := by decide

namespace FileTree

instance : Inhabited FileTree := ⟨{}⟩

/-! ### Building -/

/-- Adds an entry, or leaves the tree as it is if the entry does not fit. -/
def add (t : FileTree) (entry : FileEntry) : FileTree :=
  if h : entry.Fits t.working ∧ ∀ other ∈ t.entries, entry.Compatible other then
    { t with
      entries := entry :: t.entries
      compatible := List.pairwise_cons.2 ⟨h.2, t.compatible⟩
      fits := List.forall_mem_cons.2 ⟨h.1, t.fits⟩ }
  else t

/-- Removes what is found under exactly these names. -/
def remove (t : FileTree) (names : List String) : FileTree where
  working := t.working
  entries := t.entries.filter (·.names != names)
  named := t.named
  compatible := t.compatible.filter _
  fits := fun entry hentry ↦ t.fits entry (List.mem_filter.1 hentry).1

/-- The names on the way from the root along a path. -/
def namesOf (t : FileTree) (path : String) : List String :=
  let p := Path.ofText path
  if p.root.isEmpty then t.working ++ p.names else p.names

/-- Writes a plain file, over an old one if there is one. -/
def writeFile (t : FileTree) (path : String) (bytes : List UInt8) : FileTree :=
  (t.remove (t.namesOf path)).add ⟨t.namesOf path, .file bytes⟩

/-! ### Looking up -/

/-- The node under some names. -/
def find? (t : FileTree) (names : List String) : Option Node :=
  match t.entries.find? (·.names == names) with
  | some entry => some entry.node
  | none =>
    if names.isPrefixOf t.working || t.entries.any fun entry ↦ names.isPrefixOf entry.names then
      some .directory
    else none

/-- One name on the way along a path, from the place that the names before lead to. Every name, even
one that stays in place, leads on from a directory only. -/
def stepTo (t : FileTree) (place : List String) (name : String) :
    Except FileError (List String) :=
  match t.find? place with
  | none => .error .absent
  | some (.file ..) => .error .notDirectory
  | some (.directory _ searchable) =>
    if !searchable then .error .denied
    else if name = "." then .ok place
    else if name = ".." then .ok place.dropLast
    else if longestName < name.utf8ByteSize then .error .nameTooLong
    else if (t.find? (place ++ [name])).isSome then .ok (place ++ [name])
    else .error .absent

/-- The place that a path leads to. The empty path leads nowhere. -/
def resolve (t : FileTree) (path : String) : Except FileError (List String) :=
  if path.isEmpty then .error .absent
  else if longestPath < path.utf8ByteSize then .error .nameTooLong
  else (slashNames path).foldlM t.stepTo (if path.toList.head? = some '/' then [] else t.working)

/-- The place that a path leads to, and the node there. A slash at the end asks for a directory. -/
def status (t : FileTree) (path : String) : Except FileError (List String × Node) := do
  let place ← t.resolve path
  match t.find? place with
  | none => .error .absent
  | some node =>
    if node.isFile ∧ path.toList.getLast? = some '/' then .error .notDirectory
    else .ok (place, node)

/-- Reads a plain file. -/
def read (t : FileTree) (path : String) : Except FileError (List UInt8) := do
  let (_, node) ← t.status path
  match node with
  | .file bytes true => .ok bytes
  | .directory true _ => .error .isDirectory
  | .file _ false | .directory false _ => .error .denied

/-! ### Searching -/

/-- What a search finds under a path. Under a path with a null character there is nothing. -/
def look? (t : FileTree) (p : Path) : Except SearchError (Option (List String × Node)) :=
  if p.names.any hasNull then .ok none
  else
    match t.status p.toText with
    | .ok found => .ok (some found)
    | .error e => if e.isAbsence then .ok none else .error (.refused p.toText e)

/-- All that is below a place, by the names on the way to it from there. -/
def namesBelow (t : FileTree) (place : List String) : List (List String) :=
  let below := ((t.working :: t.entries.map FileEntry.names).filter place.isPrefixOf).map
    (List.drop place.length)
  (below.flatMap fun names ↦ (List.range names.length).map fun n ↦ names.take (n + 1)).eraseDups

/-- Whether a search comes by what is below a place: every directory on the way can be listed. -/
def isListed (t : FileTree) (place names : List String) : Bool :=
  (List.range names.length).all fun n ↦ (t.find? (place ++ names.take n)).any Node.isListable

/-- The plain files among some names below a directory. Each path is looked at, and directories
may be nested up to the given number of levels. -/
def collect (t : FileTree) (levels : Nat) (directory : Path) :
    List (List String) → Except SearchError (List (List String))
  | [] => .ok []
  | names :: rest => do
    match ← t.look? (directory.descend names) with
    | some (_, .file ..) => return names :: (← t.collect levels directory rest)
    | some (_, .directory ..) =>
      if levels < names.length then .error .tooDeep else t.collect levels directory rest
    | none => t.collect levels directory rest

/-- The plain files below the directory that a path leads to, if it leads to one. What is below a
directory that cannot be listed is passed over. -/
def filesBelow? (t : FileTree) (levels : Nat) (p : Path) :
    Except SearchError (Option (List (List String))) := do
  match ← t.look? p with
  | some (place, .directory ..) =>
    return some (← t.collect levels p ((t.namesBelow place).filter (t.isListed place)))
  | _ => return none

/-- The tree as the files of a run, where directories can be searched up to a number of levels. -/
def view (t : FileTree) (levels : Nat := 900) : FileView := ⟨t.read, t.filesBelow? levels⟩

end FileTree

end SchemeStyle
