import SchemeStyle.Yaml.Number
import SchemeStyle.Yaml.Timestamp

/-!
# YAML tags

A tag says what a node stands for. A document may write it out; a scalar without one that is plain
gets it from its text, which is looked at as a boolean, a number, null and a timestamp before it is
taken for a text.
-/

namespace SchemeStyle.Yaml

/-- What a node stands for. -/
inductive Tag where
  | null
  | bool
  | int
  | float
  | binary
  | timestamp
  | str
  | seq
  | map
  /-- A sequence of mappings with one entry each. -/
  | omap
  | pairs
  /-- A mapping of which only the keys count. -/
  | set
  /-- The key of entries that a mapping takes over from others. -/
  | merge
  /-- The key of the scalar that a mapping stands for where a scalar is wanted. -/
  | value
  | unknown
  deriving DecidableEq, Repr

namespace Tag

/-- Whether the tag is that of a scalar with a value. -/
def isScalar : Tag → Bool
  | null | bool | int | float | binary | timestamp | str => true
  | _ => false

/-- What the tags start with that YAML itself defines. -/
def stem : String := "tag:yaml.org,2002:"

/-- The tags that YAML itself defines, by what follows the stem. -/
def names : List (String × Tag) :=
  [("null", null), ("bool", bool), ("int", int), ("float", float), ("binary", binary),
    ("timestamp", timestamp), ("str", str), ("seq", seq), ("map", map), ("omap", omap),
    ("pairs", pairs), ("set", set), ("merge", merge), ("value", value)]

/-- The tag that is written out in full. -/
def ofText (text : String) : Tag :=
  ((names.find? fun entry ↦ stem ++ entry.1 == text).map Prod.snd).getD unknown

/-- The spellings of null. -/
def nulls : List String := ["", "~", "null", "Null", "NULL"]

/-- The spellings of true and of false. -/
def booleans : List String :=
  ["yes", "Yes", "YES", "no", "No", "NO", "true", "True", "TRUE", "false", "False", "FALSE", "on",
    "On", "ON", "off", "Off", "OFF"]

/-- The tag of a plain scalar without one. -/
def ofPlain (text : String) : Tag :=
  let cs := text.toList
  -- A newline at the end makes no difference, unless it is all there is.
  let line := if cs.getLast? = some '\n' ∧ cs ≠ ['\n'] then cs.dropLast else cs
  let word := String.ofList line
  if booleans.contains word then bool
  else if isFloat line then float
  else if isInteger line then int
  else if word = "<<" then merge
  else if nulls.contains word then null
  else if Timestamp.isPlain line then timestamp
  else if word = "=" then value
  else str

/-- The tag of a scalar, where `written` is the tag that the document gives it. A single exclamation
mark asks for the tag that it would have as a plain scalar. -/
def ofScalar (written : Option String) (isPlain : Bool) (text : String) : Tag :=
  match written with
  | some tag => if tag = "!" then ofPlain text else ofText tag
  | none => if isPlain then ofPlain text else str

/-- The tag of a collection, where `usual` is the one for its kind. -/
def ofCollection (usual : Tag) (written : Option String) : Tag :=
  match written with
  | some tag => if tag = "!" then usual else ofText tag
  | none => usual

end Tag

end SchemeStyle.Yaml
