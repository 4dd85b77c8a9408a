import SchemeStyle.Text.Base64
import SchemeStyle.Value.Text
import SchemeStyle.Yaml.Tag

/-!
# Values of YAML scalars

The value of a text under a tag. A text that a document puts under a tag on purpose may not fit it,
and every kind of misfit is an error of its own.
-/

namespace SchemeStyle.Yaml

/-- Why a scalar has no value. -/
inductive ScalarError where
  | number (e : NumberError)
  | bool (text : String)
  | calendar (e : CalendarError)
  | timestamp
  /-- A collection under the tag of timestamps. -/
  | collectionAsTimestamp
  /-- An escaped code point that does not exist. -/
  | codePoint (code : Nat)
  /-- A mapping that stands for a scalar, which is the mapping itself. -/
  | endless
  deriving DecidableEq, Repr

/-- The words of a report. -/
def ScalarError.message : ScalarError → String
  | number e => e.message
  | bool text => quoted text
  | calendar e => e.message
  | timestamp => "'NoneType' object has no attribute 'groupdict'"
  | collectionAsTimestamp => "expected string or bytes-like object, got 'list'"
  | codePoint _ => "chr() arg not in range(0x110000)"
  | endless => "maximum recursion depth exceeded"

/-- Why a text is not read. -/
inductive Error where
  /-- The text is not YAML, or not YAML with a value. -/
  | malformed
  | scalar (e : ScalarError)
  deriving DecidableEq, Repr

/-- The value of a word in any case as a boolean. -/
def readBool (text : String) : Except ScalarError Bool :=
  let word := String.ofList (lowerText text.toList)
  if ["yes", "true", "on"].contains word then .ok true
  else if ["no", "false", "off"].contains word then .ok false
  else .error (.bool word)

/-- The bytes that a text stands for in base 64. Only characters of ASCII are allowed. -/
def readBytes (text : String) : Except Error (List UInt8) :=
  let cs := text.toList
  if cs.all fun c ↦ c.toNat < 0x80 then
    match Base64.decode? cs with
    | some data => .ok data
    | none => .error .malformed
  else .error .malformed

/-- The day or the point in time that a text stands for. -/
def readTimestampText (text : String) : Except ScalarError Scalar :=
  match Timestamp.ofText? text.toList with
  | some t => t.toScalar.mapError .calendar
  | none => .error .timestamp

/-- The value of a text under a tag. Only the tags of scalars have one. -/
def scalarOf (tag : Tag) (text : String) : Except Error Scalar :=
  match tag with
  | .null => .ok .null
  | .bool => ((readBool text).map .bool).mapError .scalar
  | .int => (((readInt text.toList).map .int).mapError .number).mapError .scalar
  | .float => (((readFloat text.toList).map .float).mapError .number).mapError .scalar
  | .binary => (readBytes text).map .bytes
  | .timestamp => (readTimestampText text).mapError .scalar
  | .str => .ok (.text text)
  | .seq | .map | .omap | .pairs | .set | .merge | .value | .unknown => .error .malformed

end SchemeStyle.Yaml
