import SchemeStyle.Number.Reading
import SchemeStyle.Value.SetOrder

/-!
# Values in messages

How a value is shown when a message has to quote it, and what a message calls its kind. A value that
holds an integer with too many digits, or is nested too deep, cannot be shown, and then there is no
message.
-/

namespace SchemeStyle

/-! ### Numbers -/

/-- The text of digits with a point after the given number of them. A number between `10 ^ -4` and
`10 ^ 16` is written out and has at least one place; any other has one digit before the point and
an exponent of at least two digits. -/
def decimalText (digits : List Char) (point : Int) : List Char :=
  if -3 ≤ point ∧ point ≤ 0 then
    '0' :: '.' :: List.replicate (-point).toNat '0' ++ digits
  else if 0 < point ∧ point ≤ 16 then
    let whole := digits.take point.toNat ++ List.replicate (point.toNat - digits.length) '0'
    let places := digits.drop point.toNat
    whole ++ '.' :: if places.isEmpty then ['0'] else places
  else
    let mantissa :=
      match digits with
      | [] => []
      | [c] => [c]
      | c :: cs => c :: '.' :: cs
    let exponent := Nat.toDigits 10 (point - 1).natAbs
    mantissa ++ 'e' :: (if point - 1 < 0 then '-' else '+') ::
      List.replicate (2 - exponent.length) '0' ++ exponent

/-- The text of a floating-point number: the shortest digits that read back. -/
def Binary64.toText : Binary64 → String
  | finite negative significand exponent =>
    let body :=
      if significand = 0 then ['0', '.', '0']
      else
        let (digits, shift) := shortest significand exponent
        let digits := Nat.toDigits 10 digits
        decimalText digits (digits.length + shift)
    String.ofList (if negative then '-' :: body else body)
  | infinity negative => if negative then "-inf" else "inf"
  | nan => "nan"

/-! ### Bytes -/

/-- How a byte is written between two of the given quotes. -/
def shownByte (quote : Char) (b : UInt8) : List Char :=
  let c := Char.ofNat b.toNat
  if c = quote ∨ c = '\\' ∨ c = '\n' ∨ c = '\r' ∨ c = '\t' then Quoted.escape quote c
  else if 0x20 ≤ b ∧ b < 0x7F then [c]
  else '\\' :: 'x' :: hexDigits 2 b.toNat

/-- Bytes as they are shown inside a message: like a text, with a mark in front and with all that is
not ASCII spelled out. -/
def shownBytes (data : List UInt8) : String :=
  let quote := Quoted.quoteFor (data.map fun b ↦ Char.ofNat b.toNat)
  String.ofList ('b' :: quote :: data.flatMap (shownByte quote) ++ [quote])

/-! ### Dates -/

/-- A number of minutes as it is shown inside a message: whole days, of which there may be less than
none, and the seconds of the day that is left. -/
def shownMinutes (minutes : Int) : String :=
  let parts := [("days", minutes / 1440), ("seconds", minutes % 1440 * 60)]
  let named := (parts.filter fun part ↦ part.2 != 0).map fun part ↦ part.1 ++ "=" ++ toString part.2
  "datetime.timedelta(" ++ (if named.isEmpty then "0" else ", ".intercalate named) ++ ")"

/-- The words of a report. -/
def CalendarError.message : CalendarError → String
  | year n => s!"year {n} is out of range"
  | month => "month must be in 1..12"
  | day => "day is out of range for month"
  | hour => "hour must be in 0..23"
  | minute => "minute must be in 0..59"
  | second => "second must be in 0..59"
  | offset minutes =>
    "offset must be a timedelta strictly between -timedelta(hours=24) and timedelta(hours=24), " ++
      s!"not {shownMinutes minutes}."

/-- Numbers between commas. -/
def commaSeparated (numbers : List Nat) : String :=
  ", ".intercalate (numbers.map toString)

/-- A day as it is shown inside a message. -/
def Date.shown (d : Date) : String :=
  "datetime.date(" ++ commaSeparated [d.year, d.month, d.day] ++ ")"

/-- An offset as it is shown inside a message. -/
def ClockOffset.shown (o : ClockOffset) : String :=
  if o.minutes = 0 then "datetime.timezone.utc"
  else "datetime.timezone(" ++ shownMinutes o.minutes ++ ")"

/-- A point in time as it is shown inside a message. Seconds are left out if they are zero and
nothing follows them. -/
def Moment.shown (m : Moment) : String :=
  let seconds :=
    if m.time.microsecond ≠ 0 then [m.time.second, m.time.microsecond]
    else if m.time.second ≠ 0 then [m.time.second]
    else []
  let numbers := [m.date.year, m.date.month, m.date.day, m.time.hour, m.time.minute] ++ seconds
  let offset := (m.offset?.map fun o ↦ ", tzinfo=" ++ o.shown).getD ""
  "datetime.datetime(" ++ commaSeparated numbers ++ offset ++ ")"

/-! ### Values -/

namespace Scalar

/-- A scalar as it is shown inside a message. -/
def shown : Scalar → String
  | null => "None"
  | bool b => if b then "True" else "False"
  | int n => toString n
  | float x => x.toText
  | text s => quoted s
  | bytes data => shownBytes data
  | date d => d.shown
  | moment m => m.shown

/-- A scalar as the name of something: a text, a day and a point in time are shown bare. -/
def bare : Scalar → String
  | text s => s
  | date d => d.toText
  | moment m => m.toText
  | s => s.shown

/-- What a message calls the kind of a scalar. -/
def kind : Scalar → String
  | null => "NoneType"
  | bool _ => "bool"
  | int _ => "int"
  | float _ => "float"
  | text _ => "str"
  | bytes _ => "bytes"
  | date _ => "datetime.date"
  | moment _ => "datetime.datetime"

end Scalar

namespace Value

/-- What a message calls the kind of a value. -/
def kind : Value → String
  | scalar s => s.kind
  | list _ | enclosing .list => "list"
  | map _ | enclosing .map => "dict"
  | set _ => "set"
  | pair _ _ => "tuple"

mutual

/-- A value as it is shown inside a message. -/
def shown : Value → String
  | scalar s => s.shown
  | list items => "[" ++ ", ".intercalate (shownItems items) ++ "]"
  | map entries => "\x7b" ++ ", ".intercalate (shownEntries entries) ++ "\x7d"
  | set items =>
    if items.isEmpty then "set()"
    else "\x7b" ++ ", ".intercalate ((setOrder items).map Scalar.shown) ++ "\x7d"
  | pair key value => "(" ++ key.shown ++ ", " ++ value.shown ++ ")"
  | enclosing .list => "[...]"
  | enclosing .map => "\x7b...\x7d"

/-- The items of a list as they are shown. -/
def shownItems : List Value → List String
  | [] => []
  | v :: rest => v.shown :: shownItems rest

/-- The entries of a mapping as they are shown. -/
def shownEntries : List (Scalar × Value) → List String
  | [] => []
  | (k, v) :: rest => (k.shown ++ ": " ++ v.shown) :: shownEntries rest

end

end Value

/-! ### What can be shown -/

namespace Scalar

/-- Whether a scalar can be shown: an integer only if it has few enough digits to be written. -/
def isShowable : Scalar → Bool
  | int n => isWritable longestInteger n
  | _ => true

/-- How deep a scalar is nested when it is shown: a point in time shows its clock, and a clock other
than the standard one its distance from that one. -/
def levels : Scalar → Nat
  | moment m =>
    match m.offset? with
    | none => 1
    | some o => if o.minutes = 0 then 2 else 3
  | _ => 1

/-- Why a scalar cannot be shown where there is room for any. -/
def obstacle? (s : Scalar) : Option ShowError :=
  if s.isShowable then none else some (.tooManyDigits longestInteger)

/-- Why a scalar cannot be shown with room for so many levels. -/
def showError? (room : Nat) (s : Scalar) : Option ShowError :=
  if room < s.levels then some .tooDeep else s.obstacle?

end Scalar

namespace Value

mutual

/-- Why a value cannot be shown with room for so many levels. A collection takes one level, a
nonempty set another one for the list of its items, and what is in it has what is left. -/
def showError? : Nat → Value → Option ShowError
  | room, scalar s => s.showError? room
  | 0, _ => some .tooDeep
  | room + 1, list items => showErrorOfItems? room items
  | room + 1, map entries => showErrorOfEntries? room entries
  | room + 1, set items =>
    if items.isEmpty then none
    else if room = 0 then some .tooDeep
    else (setOrder items).findSome? (Scalar.showError? (room - 1))
  | room + 1, pair key value => (key.showError? room).or (value.showError? room)
  | _ + 1, enclosing _ => none

/-- Why the items of a list cannot be shown: the first of them that cannot decides. -/
def showErrorOfItems? : Nat → List Value → Option ShowError
  | _, [] => none
  | room, v :: rest => (v.showError? room).or (showErrorOfItems? room rest)

/-- Why the entries of a mapping cannot be shown. -/
def showErrorOfEntries? : Nat → List (Scalar × Value) → Option ShowError
  | _, [] => none
  | room, (k, v) :: rest =>
    ((k.showError? room).or (v.showError? room)).or (showErrorOfEntries? room rest)

end

end Value

end SchemeStyle
