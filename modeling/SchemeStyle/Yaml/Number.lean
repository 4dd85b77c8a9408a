import SchemeStyle.Number.Reading
import SchemeStyle.Text.LowerCase

/-!
# Numbers in YAML

Which texts are numbers without saying so, and how a text that is to be a number is read. A number
may have underscores anywhere after its first digit. An integer is written in base two or sixteen
with a mark in front, in base eight with a zero in front, in base ten, or in base sixty with colons
between its places; a floating-point number in base ten or, likewise, sixty.
-/

namespace SchemeStyle.Yaml

/-! ### Which texts are numbers -/

/-- Whether a text is a run of digits and underscores that starts with a digit. -/
def isDigitRun : List Char → Bool
  | [] => false
  | c :: cs => c.isDigit && cs.all fun ch ↦ ch.isDigit || ch == '_'

/-- Whether a text is a place of a number in base sixty: one digit, or two of which the first is at
most five. -/
def isSixtieth : List Char → Bool
  | [c] => c.isDigit
  | [c, d] => '0' ≤ c && c ≤ '5' && d.isDigit
  | _ => false

/-- Whether a text has characters and all of them are digits of the base or underscores. -/
def isUnderscored (base : Nat) (cs : List Char) : Bool :=
  !cs.isEmpty && cs.all fun c ↦ c == '_' || (digitValue? c).any (· < base)

/-- Whether a text is written like an integer. -/
def isInteger (cs : List Char) : Bool :=
  match (Decimal.splitSign cs).2 with
  | ['0'] => true
  | '0' :: 'b' :: digits => isUnderscored 2 digits
  | '0' :: 'x' :: digits => isUnderscored 16 digits
  | '0' :: digits => isUnderscored 8 digits
  | body =>
    match body.splitOn ':' with
    | first :: places => isDigitRun first && places.all isSixtieth
    | [] => false

/-- Whether a text is an exponent with its sign, or empty. -/
def isExponent : List Char → Bool
  | [] => true
  | e :: sign :: digits =>
    (e == 'e' || e == 'E') && (sign == '+' || sign == '-') && !digits.isEmpty &&
      digits.all Char.isDigit
  | _ => false

/-- Whether a text is written like a floating-point number. There has to be a point, and an exponent
has a sign. -/
def isFloat (cs : List Char) : Bool :=
  let body := (Decimal.splitSign cs).2
  let signed := body.length < cs.length
  if [".inf", ".Inf", ".INF"].contains (String.ofList body) then true
  else if [".nan", ".NaN", ".NAN"].contains (String.ofList cs) then true
  else
    let whole := body.takeWhile (· != '.')
    let places := (body.dropWhile (· != '.')).drop 1
    let fraction := places.takeWhile fun c ↦ c.isDigit || c == '_'
    let rest := places.dropWhile fun c ↦ c.isDigit || c == '_'
    body.contains '.' && isExponent rest &&
      match whole.splitOn ':' with
      | [[]] => !signed && isDigitRun fraction
      | [first] => isDigitRun first
      | first :: places => isDigitRun first && places.all isSixtieth && rest.isEmpty
      | [] => false

/-! ### Their values -/

/-- Why a text that is to be a number is none. -/
inductive NumberError where
  | integer (e : IntegerError)
  | float (text : String)
  /-- There is nothing where a digit should be. -/
  | noDigits
  /-- A place in base sixty counts more than any floating-point number. -/
  | tooManyPlaces
  deriving DecidableEq, Repr

/-- The words of a report. -/
def NumberError.message : NumberError → String
  | integer e => e.message
  | float text => s!"could not convert string to float: {quoted text}"
  | noDigits => "string index out of range"
  | tooManyPlaces => "int too large to convert to float"

/-- Reads an integer without its sign, and without underscores. -/
def readMagnitude (cs : List Char) : Except NumberError Int :=
  let read (base : Nat) (cs : List Char) := (readInteger base cs).mapError .integer
  match cs with
  | [] => .error .noDigits
  | '0' :: 'b' :: digits => read 2 digits
  | '0' :: 'x' :: digits => read 16 digits
  | '0' :: digits => read 8 ('0' :: digits)
  | cs =>
    if cs.contains ':' then do
      let places ← (cs.splitOn ':').mapM (read 10)
      return places.foldl (fun n place ↦ n * 60 + place) 0
    else read 10 cs

/-- Reads an integer. -/
def readInt (cs : List Char) : Except NumberError Int := do
  let cs := cs.filter (· != '_')
  let (negative, body) := Decimal.splitSign cs
  let n ← readMagnitude body
  return if negative then -n else n

/-- Reads a floating-point number in base ten. -/
def readDecimal (cs : List Char) : Except NumberError Binary64 :=
  match readFloat? cs with
  | some x => .ok x
  | none => .error (.float (String.ofList cs))

/-- The sum of the places of a number in base sixty, the last place first, where the first of them
counts `unit`. Every product and every sum is rounded. -/
def sumSixtieths (sum : Binary64) (unit : Nat) : List Binary64 → Except NumberError Binary64
  | [] => .ok sum
  | place :: places =>
    match Binary64.ofNat unit with
    | .finite .. => sumSixtieths (sum.add (place.mul (.ofNat unit))) (unit * 60) places
    | _ => .error .tooManyPlaces

/-- Reads a floating-point number, in any case. -/
def readFloat (cs : List Char) : Except NumberError Binary64 := do
  let cs := lowerText (cs.filter (· != '_'))
  if cs.isEmpty then throw .noDigits
  let (negative, body) := Decimal.splitSign cs
  let sign (x : Binary64) : Binary64 := if negative then x.negate else x
  if body = ".inf".toList then return .infinity negative
  if body = ".nan".toList then return .nan
  if body.contains ':' then
    let places ← (body.splitOn ':').mapM readDecimal
    return sign (← sumSixtieths (.ofNat 0) 1 places.reverse)
  return sign (← readDecimal body)

end SchemeStyle.Yaml
