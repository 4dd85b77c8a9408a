import SchemeStyle.File.View
import SchemeStyle.Style.Settings
import SchemeStyle.Text.Lines

/-!
# Style files

A style file is a YAML text that holds a mapping of settings. A file that holds nothing, or a value
that counts as nothing, changes no setting. YAML is read by somebody else: all that is fixed here is
what is made of the outcome.
-/

namespace SchemeStyle

/-- Why no value is read from a text. -/
inductive YamlError where
  /-- The text is not YAML. -/
  | malformed
  /-- The text ends in an error, which is handed on. -/
  | stream (error : Utf8.Error)
  /-- Anything else, by its kind and its words. -/
  | other (kind message : String)
  deriving DecidableEq, Repr

/-- A reader of YAML: what comes of a text, as it is delivered. -/
abbrev YamlReader := TextStream → Except YamlError Value

/-- Why a style file does not describe a style. -/
inductive ConfigError where
  | unreadable (path : String) (error : FileError)
  /-- The path has a null character. -/
  | nullCharacter
  | encoding (error : Utf8.Error)
  | malformed (path : String)
  /-- The reader fails otherwise. -/
  | reader (kind message : String)
  | settings (error : SettingsError)
  deriving Repr

namespace ConfigError

/-- The words of a report. -/
def message : ConfigError → String
  | unreadable path error => s!"cannot read config {path}: {error.message}"
  | nullCharacter => "embedded null byte"
  | encoding error => error.message
  | malformed path => s!"invalid YAML in {path}"
  | reader _ message => message
  | settings error => error.message

/-- Whether a run answers the error with a message of its own. The others end the program where
they arise: a path that cannot be opened at all, bytes that are no text, whatever the reader does
not call malformed, a flag that is no text, and what a message cannot show. -/
def isAnswered : ConfigError → Bool
  | nullCharacter | encoding _ | reader .. | settings (.flagNotText _)
  | settings (.unshowable _) => false
  | _ => true

end ConfigError

namespace Style

/-- The style that the bytes of a file describe. The path is what messages call the file. -/
def ofBytes (yaml : YamlReader) (room : Nat) (path : String) (bytes : List UInt8) :
    Except ConfigError Style :=
  match yaml (readStream bytes) with
  | .error .malformed => .error (.malformed path)
  | .error (.stream error) => .error (.encoding error)
  | .error (.other kind message) => .error (.reader kind message)
  | .ok value => (ofValue room (if value.isEmpty then .map [] else value)).mapError .settings

/-- The style that a file describes. -/
def load (files : FileView) (yaml : YamlReader) (room : Nat) (path : String) :
    Except ConfigError Style :=
  if hasNull path then .error .nullCharacter
  else
    match files.read path with
    | .error e => .error (.unreadable path e)
    | .ok bytes => ofBytes yaml room path bytes

end Style

end SchemeStyle
