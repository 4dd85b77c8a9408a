import SchemeStyle.Number.Binary64
import SchemeStyle.Number.Writing
import SchemeStyle.Text.Blank
import SchemeStyle.Text.Digit
import SchemeStyle.Text.Quoted

/-!
# Numbers as they are typed

A number may be written in the digits of any script, with single underscores between digits and
white space around it. An integer may start with a mark that repeats its base.
-/

namespace SchemeStyle

/-! ### Integers -/

/-- Why a text is not an integer. -/
inductive IntegerError where
  /-- The text does not consist of digits of the base. -/
  | notDigits (base : Nat) (text : String)
  /-- The text has more digits than an integer may be written with. -/
  | tooLong (digits : Nat)
  deriving DecidableEq, Repr

/-- The words of a report. A long text is shown by its beginning. -/
def IntegerError.message : IntegerError → String
  | notDigits base text =>
    s!"invalid literal for int() with base {base}: " ++
      String.ofList ((quoted text).toList.take 200)
  | tooLong digits =>
    s!"Exceeds the limit ({longestInteger} digits) for integer string conversion: " ++
      s!"value has {digits} digits; use sys.set_int_max_str_digits() to increase the limit"

/-- The value of a digit of the base: a decimal digit of any script, or a letter up to F. -/
def digitOf? (base : Nat) (c : Char) : Option Nat := do
  let n ← decimalValue? c <|> digitValue? c
  guard (n < base)
  some n

/-- The values of a run of digits with single underscores between them. -/
def groupedDigits? (base : Nat) : List Char → Option (List Nat)
  | [] => none
  | [c] => (digitOf? base c).map fun d ↦ [d]
  | c :: '_' :: cs => do some ((← digitOf? base c) :: (← groupedDigits? base cs))
  | c :: cs => do some ((← digitOf? base c) :: (← groupedDigits? base cs))

/-- The letters that mark a base after a zero. -/
def baseLetters (base : Nat) : List Char :=
  if base = 2 then ['b', 'B'] else if base = 8 then ['o', 'O'] else if base = 16 then ['x', 'X']
  else []

/-- Takes the mark of the base off the front of a text. -/
def dropBaseMark (base : Nat) : List Char → List Char
  | '0' :: c :: cs => if (baseLetters base).contains c then cs else '0' :: c :: cs
  | cs => cs

/-- The number of digits at the front of a text. -/
def countDigits (base : Nat) (cs : List Char) : Nat :=
  (cs.takeWhile fun c ↦ c == '_' || (digitOf? base c).isSome).countP (· != '_')

/-- Reads an integer. -/
def readInteger (base : Nat) (cs : List Char) : Except IntegerError Int :=
  let (negative, body) := Decimal.splitSign (trimPadding cs)
  let body := dropBaseMark base body
  if (baseLetters base).isEmpty ∧ longestInteger < countDigits base body then
    .error (.tooLong (countDigits base body))
  else
    match groupedDigits? base body with
    | some digits =>
      let n : Int := ofDigits base digits
      .ok (if negative then -n else n)
    | none => .error (.notDigits base (String.ofList cs))

/-! ### Floating-point numbers -/

/-- A text with the decimal digits of all scripts as those of ASCII. -/
def asciiDigits (cs : List Char) : List Char :=
  cs.map fun c ↦ ((decimalValue? c).map Nat.digitChar).getD c

/-- A text without its underscores, of which each has to stand between two digits. The character
before the text is given. -/
def dropGrouping? (before : Option Char) : List Char → Option (List Char)
  | [] => some []
  | c :: cs =>
    if c = '_' then
      if before.any Char.isDigit ∧ cs.head?.any Char.isDigit then dropGrouping? (some c) cs
      else none
    else (dropGrouping? (some c) cs).map (c :: ·)

/-- Reads a floating-point number. -/
def readFloat? (cs : List Char) : Option Binary64 := do
  Binary64.ofText? (← dropGrouping? none (asciiDigits (trimPadding cs)))

end SchemeStyle
