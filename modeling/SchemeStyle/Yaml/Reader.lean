import SchemeStyle.Style.Load
import SchemeStyle.Yaml.Unfolding

/-!
# Reading settings from YAML

The reader of `SchemeStyle.Yaml` as one of those that a style file may be read with. It looks at a
text only if all of it is delivered.
-/

namespace SchemeStyle.Yaml

/-- What a message calls the kind of an error. -/
def ScalarError.kind : ScalarError → String
  | number (.integer _) | number (.float _) | calendar _ | codePoint _ => "ValueError"
  | number .noDigits => "IndexError"
  | number .tooManyPlaces => "OverflowError"
  | bool _ => "KeyError"
  | timestamp => "AttributeError"
  | collectionAsTimestamp => "TypeError"
  | endless => "RecursionError"

/-- Reads the value of a text. -/
def reader : YamlReader := fun stream ↦
  match stream.error? with
  | some e => .error (.stream e)
  | none =>
    match readValue stream.chars with
    | .ok value => .ok value
    | .error .malformed => .error .malformed
    | .error (.scalar e) => .error (.other e.kind e.message)

end SchemeStyle.Yaml
