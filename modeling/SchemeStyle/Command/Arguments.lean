import SchemeStyle.Command.Usage
import SchemeStyle.Number.Reading

/-!
# Command line arguments

The arguments of a command are first classified, each by itself: as an option, or as positional. A
long option may be cut short as long as no other starts alike, short options may be put together
behind one dash, and an argument of an option may be attached to it. Then the options and the files
are taken in order. Only the first run of positional arguments names files; any other is reported,
together with the options that are not known, when all arguments have been read.
-/

namespace SchemeStyle

/-! ### Classification -/

/-- An argument attached to an option: what follows the option in the same word. -/
structure Attached where
  /-- Whether an equals sign stands between. -/
  equals : Bool
  text : List Char
  deriving DecidableEq, Repr

/-- An option as it was written. -/
structure WrittenOption where
  option : Opt
  /-- Whether it was written with a single dash. -/
  short : Bool
  attached? : Option Attached := none
  deriving DecidableEq, Repr

/-- An argument by its looks. -/
inductive Argument where
  | positional (text : String)
  /-- Two dashes, after which every argument is positional. -/
  | separator
  | written (option : WrittenOption)
  /-- An option that is not known. -/
  | unknown (text : String)
  deriving DecidableEq, Repr

namespace Argument

/-- What stands before and after the first equals sign of a text, if it has one. -/
def splitEquals (cs : List Char) : List Char × Option (List Char) :=
  match cs.dropWhile (· != '=') with
  | [] => (cs, none)
  | _ :: rest => (cs.takeWhile (· != '='), some rest)

/-- Whether an option is spelled with a single dash. -/
def isShort (spelling : String) : Bool :=
  spelling.toList[1]? != some '-'

/-- All options that an argument may be short for, with what it attaches to them. Behind two dashes,
a spelling is cut short before the equals sign; behind one dash, the first letter alone may be an
option and the rest attached to it. -/
def candidates (cs : List Char) : List (String × WrittenOption) :=
  if isShort (String.ofList cs) then
    Opt.spellings.filterMap fun (spelling, option) ↦
      if spelling.toList = cs.take 2 then some (spelling, ⟨option, true, some ⟨false, cs.drop 2⟩⟩)
      else if cs.isPrefixOf spelling.toList then some (spelling, ⟨option, isShort spelling, none⟩)
      else none
  else
    let (name, text?) := splitEquals cs
    Opt.spellings.filterMap fun (spelling, option) ↦
      if name.isPrefixOf spelling.toList then
        some (spelling, ⟨option, isShort spelling, text?.map fun text ↦ ⟨true, text⟩⟩)
      else none

/-- An option that is spelled out, before an equals sign if there is one. -/
def spelledOut? (s : String) : Option WrittenOption :=
  match Opt.ofSpelling? s with
  | some option => some ⟨option, isShort s, none⟩
  | none =>
    match splitEquals s.toList with
    | (name, some text) =>
      let spelling := String.ofList name
      (Opt.ofSpelling? spelling).map fun option ↦
        ⟨option, isShort spelling, some ⟨true, text⟩⟩
    | (_, none) => none

/-- Classifies an argument. A dash alone, a negative number and a text with a space are positional
unless an option starts like them. -/
def ofText (s : String) : Except UsageError Argument :=
  match s.toList with
  | '-' :: c :: cs =>
    match spelledOut? s with
    | some option => .ok (.written option)
    | none =>
      match candidates ('-' :: c :: cs) with
      | [] =>
        .ok (if isNegativeNumber s || s.toList.contains ' ' then .positional s else .unknown s)
      | [(_, option)] => .ok (.written option)
      | several => .error (.ambiguous s (several.map Prod.fst))
  | _ => .ok (.positional s)

/-- Classifies the arguments of a command. -/
def ofTexts : List String → Except UsageError (List Argument)
  | [] => .ok []
  | s :: rest =>
    if s = "--" then .ok (.separator :: rest.map .positional)
    else do
      let argument ← ofText s
      pure (argument :: (← ofTexts rest))

end Argument

/-! ### Reading -/

/-- What a command asks for. -/
structure Arguments where
  files : List String := []
  /-- The style file. -/
  config? : Option String := none
  /-- Whether the report is meant for programs. -/
  json : Bool := false
  /-- How many files may be linted at once. -/
  jobs : Int := 1
  /-- Whether the log is written. -/
  verbose : Bool := false
  deriving DecidableEq, Repr

/-- A command as it was read. -/
inductive Command where
  | help
  | version
  | lint (arguments : Arguments)
  deriving DecidableEq, Repr

/-- Whether positional arguments still name files. -/
inductive Collecting where
  | notYet
  | now
  | noMore
  deriving DecidableEq, Repr

/-- What was read so far. -/
structure Progress where
  arguments : Arguments := {}
  collecting : Collecting := .notYet
  unrecognized : List String := []
  deriving DecidableEq, Repr

namespace Progress

/-- Takes a positional argument. -/
def positional (s : String) (p : Progress) : Progress :=
  if p.collecting = .noMore then { p with unrecognized := p.unrecognized ++ [s] }
  else
    { p with
      collecting := .now
      arguments := { p.arguments with files := p.arguments.files ++ [s] } }

/-- Takes the two dashes. They are left out where they stand among the files. -/
def separator (p : Progress) : Progress :=
  if p.collecting = .noMore then { p with unrecognized := p.unrecognized ++ ["--"] }
  else p

/-- Takes an argument that nothing else takes. -/
def reject (s : String) (p : Progress) : Progress :=
  { p with unrecognized := p.unrecognized ++ [s] }

/-- An option ends the run of files. -/
def endFiles (p : Progress) : Progress :=
  if p.collecting = .now then { p with collecting := .noMore } else p

end Progress

/-- What a word of options comes to: the options in it, the last of them with its argument if that
is attached, whether that argument is still to come, and letters that are no option. -/
structure Cluster where
  options : List (Opt × Option String) := []
  awaiting? : Option Opt := none
  unknown? : Option String := none
  deriving DecidableEq, Repr

namespace Cluster

/-- The cluster with an option in front. -/
def cons (option : Opt) (cluster : Cluster) : Cluster :=
  { cluster with options := (option, none) :: cluster.options }

/-- Reads the letters that are attached to a short option without an argument. Each is an option in
turn; one that takes an argument takes the rest of the letters, without the equals sign that may
stand in front of them. -/
def ofLetters (option : Opt) : List Char → Except UsageError Cluster
  | [] => .ok {}
  | '-' :: cs => .error (.ignoredArgument option (String.ofList ('-' :: cs)))
  | c :: cs =>
    match Opt.ofSpelling? (String.ofList ['-', c]) with
    | none => .ok { unknown? := some (String.ofList ('-' :: c :: cs)) }
    | some next =>
      if next.takesArgument then
        match cs with
        | [] => .ok { awaiting? := some next }
        | '=' :: text | text => .ok { options := [(next, some (String.ofList text))] }
      else
        match cs with
        | [] => .ok { options := [(next, none)] }
        | '=' :: text => .error (.ignoredArgument next (String.ofList text))
        | text => (ofLetters next text).map (cons next)

/-- Reads an option and what is attached to it. -/
def ofWritten (w : WrittenOption) : Except UsageError Cluster :=
  match w.attached? with
  | none =>
    if w.option.takesArgument then .ok { awaiting? := some w.option }
    else .ok { options := [(w.option, none)] }
  | some attached =>
    let text := String.ofList attached.text
    if w.option.takesArgument then .ok { options := [(w.option, some text)] }
    else if w.short ∧ ¬attached.equals ∧ attached.text ≠ [] then
      (ofLetters w.option attached.text).map (cons w.option)
    else .error (.ignoredArgument w.option text)

end Cluster

namespace Command

/-- Takes an option with its argument. Help and version end the reading. -/
def takeOption (option : Opt) (argument? : Option String) (p : Progress) :
    Except UsageError (Command ⊕ Progress) :=
  let set (f : Arguments → Arguments) : Except UsageError (Command ⊕ Progress) :=
    .ok (.inr { p with arguments := f p.arguments })
  match option with
  | .help => .ok (.inl .help)
  | .version => .ok (.inl .version)
  | .json => set fun a ↦ { a with json := true }
  | .verbose => set fun a ↦ { a with verbose := true }
  | .config => set fun a ↦ { a with config? := argument? }
  | .jobs =>
    let text := argument?.getD ""
    match readInteger 10 text.toList with
    | .ok n => set fun a ↦ { a with jobs := n }
    | .error _ => .error (.notInteger .jobs text)

/-- Takes some options in order. -/
def takeOptions : List (Opt × Option String) → Progress → Except UsageError (Command ⊕ Progress)
  | [], p => .ok (.inr p)
  | (option, argument?) :: rest, p => do
    match ← takeOption option argument? p with
    | .inl command => .ok (.inl command)
    | .inr p => takeOptions rest p

/-- Reads classified arguments. -/
def read : List Argument → Progress → Except UsageError Command
  | [], p =>
    if p.unrecognized.isEmpty then .ok (.lint p.arguments)
    else .error (.unrecognized p.unrecognized)
  | .positional s :: rest, p => read rest (p.positional s)
  | .separator :: rest, p => read rest p.separator
  | .unknown s :: rest, p => read rest (p.endFiles.reject s)
  | .written w :: rest, p => do
    let cluster ← Cluster.ofWritten w
    let p := p.endFiles
    let p :=
      match cluster.unknown? with
      | some s => p.reject s
      | none => p
    match cluster.awaiting? with
    | none => do
      match ← takeOptions cluster.options p with
      | .inl command => .ok command
      | .inr p => read rest p
    | some option =>
      match rest with
      | .positional argument :: rest => do
        match ← takeOptions (cluster.options ++ [(option, some argument)]) p with
        | .inl command => .ok command
        | .inr p => read rest p
      | _ => .error (.missingArgument option)

/-- The command that some arguments make up. -/
def ofArguments (texts : List String) : Except UsageError Command := do
  read (← Argument.ofTexts texts) {}

end Command

end SchemeStyle
