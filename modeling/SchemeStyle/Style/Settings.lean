import SchemeStyle.Style
import SchemeStyle.Style.FlagNames

/-!
# Settings

A style is adjusted by a mapping from the names of its parts to values. `Style.ofValue` checks the
entries in order and reports the first that does not fit; the one condition that a single entry
cannot decide, that a form may be opened at all, is checked last. A report may have to show a key or
a value, and an operator is named by its key as it is shown; what cannot be shown is an error too.
How deep a value may be nested to be shown is up to the machine: there is `room` for so many levels
more than any scalar needs.
-/

namespace SchemeStyle

/-- Why a value is not a mapping of settings. -/
inductive SettingsError where
  | notMapping
  | unknownKey (key : Scalar)
  /-- The value of `key` is not a positive integer. -/
  | notPositive (key : String) (value : Value)
  /-- The value of `key` is not a text, or empty. -/
  | notText (key : String)
  /-- The value of `key` is not a list of texts. -/
  | notTexts (key : String)
  | rulesNotMapping
  /-- The rule of the operator is neither a name nor a list. -/
  | ruleNotList (operator : String)
  /-- The rule of the operator names no flag. -/
  | unknownFlag (operator : String) (name : Scalar)
  /-- Something else stands where the name of a flag should. -/
  | flagNotText (value : Value)
  | depthTooSmall
  /-- A key or a value has to be shown and cannot be. -/
  | unshowable (error : ShowError)
  deriving Repr

/-- The words of a report. -/
def SettingsError.message : SettingsError → String
  | notMapping => "config must be a mapping"
  | unknownKey key => s!"unknown config key {key.shown}"
  | notPositive key value => s!"{key} must be a positive integer, got {value.shown}"
  | notText key => s!"{key} must be a non-empty string"
  | notTexts key => s!"{key} must be a list of strings"
  | rulesNotMapping => "indent_rules must map operator names to flag lists"
  | ruleNotList operator => s!"indent_rules.{operator} must be a list of flags"
  | unknownFlag operator name =>
    s!"indent_rules.{operator}: " ++ (FlagError.unknown name).message
  | flagNotText value => (FlagError.notText value).message
  | depthTooSmall => "max_depth must be at least 2"
  | unshowable error => error.message

/-- The error, unless its words include something that cannot be shown. -/
def SettingsError.showing (obstacle? : Option ShowError) (e : SettingsError) : SettingsError :=
  match obstacle? with
  | none => e
  | some obstacle => .unshowable obstacle

/-! ### Parts of a style -/

/-- A positive integer. Booleans are not. -/
def Value.toPositive? : Value → Option { n : Nat // 0 < n }
  | .scalar (.int n) => if h : 0 < n.toNat then some ⟨n.toNat, h⟩ else none
  | _ => none

/-- A nonempty text. -/
def Value.toNonemptyText? : Value → Option String
  | .scalar (.text s) => if s.isEmpty then none else some s
  | _ => none

/-- A text. -/
def Value.toText? : Value → Option String
  | .scalar (.text s) => some s
  | _ => none

/-- A list of texts. -/
def Value.toTexts? : Value → Option (List String)
  | .list items => items.mapM Value.toText?
  | _ => none

/-- The flags of an operator: a single name or a list of names. The name of the operator is needed
in the end, whether the flags are found or not. -/
def Flags.ofRule (operator : Scalar) : Value → Except SettingsError Flags
  | .scalar (.text name) => named [.scalar (.text name)]
  | .list names => named names
  | _ => .error (.showing operator.obstacle? (.ruleNotList operator.bare))
where
  /-- The flags of a list of names. -/
  named (names : List Value) : Except SettingsError Flags :=
    match Flags.ofNames names with
    | .ok flags =>
      match operator.obstacle? with
      | none => .ok flags
      | some obstacle => .error (.unshowable obstacle)
    | .error (.unknown name) =>
      .error (.showing operator.obstacle? (.unknownFlag operator.bare name))
    | .error (.notText value) | .error (.notList value) => .error (.flagNotText value)

/-- Indentation rules from the entries of a mapping. Operators are the keys as text, so that two
keys may name one operator; then the later one counts. -/
def RuleTable.ofEntries (entries : List (Scalar × Value)) : Except SettingsError RuleTable :=
  entries.foldlM (fun t (key, value) ↦ do
    let flags ← Flags.ofRule key value
    pure (t.insert key.bare flags)) {}

/-! ### Whole settings -/

/-- The parts of a style that were given, each checked by itself. -/
structure Settings where
  maxColumns? : Option { n : Nat // 0 < n } := none
  maxDepth? : Option { n : Nat // 0 < n } := none
  noAlignMark? : Option String := none
  sectionOperators? : Option (List String) := none
  useKeyword? : Option String := none
  extensions? : Option (List String) := none
  indentRules? : Option RuleTable := none

namespace Settings

/-- Takes one entry into account. -/
def set (room : Nat) (settings : Settings) (key : Scalar) (value : Value) :
    Except SettingsError Settings :=
  match key with
  | .text "max_columns" => do
    let n ← require value.toPositive?
      (.showing (value.showError? (room + 3)) (.notPositive "max_columns" value))
    pure { settings with maxColumns? := some n }
  | .text "max_depth" => do
    let n ← require value.toPositive?
      (.showing (value.showError? (room + 3)) (.notPositive "max_depth" value))
    pure { settings with maxDepth? := some n }
  | .text "no_align_comment" => do
    let s ← require value.toNonemptyText? (.notText "no_align_comment")
    pure { settings with noAlignMark? := some s }
  | .text "use_keyword" => do
    let s ← require value.toNonemptyText? (.notText "use_keyword")
    pure { settings with useKeyword? := some s }
  | .text "section_operators" => do
    let names ← require value.toTexts? (.notTexts "section_operators")
    pure { settings with sectionOperators? := some names }
  | .text "extensions" => do
    let names ← require value.toTexts? (.notTexts "extensions")
    pure { settings with extensions? := some names }
  | .text "indent_rules" =>
    match value with
    | .map entries => do
      let rules ← RuleTable.ofEntries entries
      pure { settings with indentRules? := some rules }
    | _ => .error .rulesNotMapping
  | key => .error (.showing key.obstacle? (.unknownKey key))
where
  /-- The value, or the error if there is none. -/
  require {α : Type} (x? : Option α) (e : SettingsError) : Except SettingsError α :=
    match x? with
    | some x => .ok x
    | none => .error e

/-- The settings of the entries of a mapping. -/
def ofEntries (room : Nat) (entries : List (Scalar × Value)) : Except SettingsError Settings :=
  entries.foldlM (fun settings (key, value) ↦ set room settings key value) {}

/-- The standard style with the given parts in place of its own. -/
def toStyle (settings : Settings) : Except SettingsError Style :=
  let standard := Style.standard
  let columns := settings.maxColumns?.getD ⟨standard.maxColumns, standard.maxColumns_pos⟩
  let depth := (settings.maxDepth?.map Subtype.val).getD standard.maxDepth
  if h : 2 ≤ depth then
    .ok {
      maxColumns := columns.val
      maxDepth := depth
      noAlignMark := settings.noAlignMark?.getD standard.noAlignMark
      sectionOperators := settings.sectionOperators?.getD standard.sectionOperators
      useKeyword := settings.useKeyword?.getD standard.useKeyword
      extensions := settings.extensions?.getD standard.extensions
      indentRules := settings.indentRules?.getD standard.indentRules
      maxColumns_pos := columns.property
      two_le_maxDepth := h }
  else .error .depthTooSmall

end Settings

/-- The style that a mapping of settings describes. -/
def Style.ofValue (room : Nat) : Value → Except SettingsError Style
  | .map entries => do
    let settings ← Settings.ofEntries room entries
    settings.toStyle
  | _ => .error .notMapping

end SchemeStyle
