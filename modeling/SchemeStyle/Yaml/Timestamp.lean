import SchemeStyle.Number.Decimal
import SchemeStyle.Value

/-!
# Timestamps as they are written

A day is written as its year, month and day with hyphens between them. A letter `T` or spaces and a
time of day may follow, with places of a second and the offset of the clock: `2001-12-14`,
`2001-12-14t21:59:43.10-05:00`. The numbers are read here as they stand; whether they make a day is
decided when the timestamp becomes a value.
-/

namespace SchemeStyle.Yaml

/-- A time of day as it is written. -/
structure ClockText where
  hour : Nat
  minute : Nat
  second : Nat
  /-- The places of a second. -/
  places : List Char := []
  /-- The offset of the clock in minutes. -/
  offset? : Option Int := none
  deriving DecidableEq, Repr

/-- A timestamp as it is written. -/
structure Timestamp where
  year : Nat
  month : Nat
  day : Nat
  /-- Whether month and day have two digits each. -/
  padded : Bool
  clock? : Option ClockText
  deriving DecidableEq, Repr

/-! ### Reading -/

/-- Reads from the front of a text, or fails. -/
abbrev FrontReader := StateT (List Char) Option

namespace FrontReader

/-- Reads digits, at least some and at most some more: their number and its value. -/
def number (least most : Nat) : FrontReader (Nat × Nat) := do
  let digits := ((← get).take most).takeWhile Char.isDigit
  guard (least ≤ digits.length)
  modify fun cs ↦ cs.drop digits.length
  let n ← natOfText? 10 digits
  return (digits.length, n)

/-- Reads a character that has a property. -/
def char (p : Char → Bool) : FrontReader Char := do
  match ← get with
  | [] => failure
  | c :: cs =>
    guard (p c)
    set cs
    return c

/-- Skips the characters that have a property. -/
def skipWhile (p : Char → Bool) : FrontReader Unit := modify fun cs ↦ cs.dropWhile p

/-- Whether nothing is left but at most a newline. -/
def atEnd : FrontReader Bool := do
  let cs ← get
  return cs.isEmpty || cs == ['\n']

end FrontReader

open FrontReader

/-- Reads the places of a second, if there are any. -/
def readPlaces : FrontReader (List Char) := do
  match ← get with
  | '.' :: cs =>
    set (cs.dropWhile Char.isDigit)
    return cs.takeWhile Char.isDigit
  | _ => return []

/-- Reads the offset of a clock, in minutes: `Z`, or a sign, hours and perhaps minutes. -/
def readOffset : FrontReader Int := do
  let sign ← char fun c ↦ c == 'Z' || c == '+' || c == '-'
  if sign = 'Z' then return 0
  let (_, hours) ← number 1 2
  let minutes ←
    if ← atEnd then pure 0
    else do
      let _ ← char (· == ':')
      pure (← number 2 2).2
  let n : Int := hours * 60 + minutes
  return if sign = '-' then -n else n

/-- Whether a character separates the parts of a timestamp. -/
def isGap (c : Char) : Bool := c == ' ' || c == '\t'

/-- Reads a time of day up to the end of the text. -/
def readClock : FrontReader ClockText := do
  let (_, hour) ← number 1 2
  let _ ← char (· == ':')
  let (_, minute) ← number 2 2
  let _ ← char (· == ':')
  let (_, second) ← number 2 2
  let places ← readPlaces
  if ← atEnd then return { hour, minute, second, places }
  skipWhile isGap
  let offset ← readOffset
  guard (← atEnd)
  return { hour, minute, second, places, offset? := some offset }

/-- Reads what separates a day from a time of day. -/
def readJoint : FrontReader Unit := do
  let c ← char fun c ↦ c == 'T' || c == 't' || isGap c
  if isGap c then skipWhile isGap

/-- Reads a timestamp up to the end of the text. -/
def readTimestamp : FrontReader Timestamp := do
  let (_, year) ← number 4 4
  let _ ← char (· == '-')
  let (monthDigits, month) ← number 1 2
  let _ ← char (· == '-')
  let (dayDigits, day) ← number 1 2
  let padded := monthDigits == 2 && dayDigits == 2
  if ← atEnd then return ⟨year, month, day, padded, none⟩
  readJoint
  return ⟨year, month, day, padded, some (← readClock)⟩

namespace Timestamp

/-- The timestamp that a text is. A newline may end it. -/
def ofText? (cs : List Char) : Option Timestamp :=
  (readTimestamp.run cs).map Prod.fst

/-- Whether a text without a tag is a timestamp: a day that stands alone has to have all its
digits. -/
def isPlain (cs : List Char) : Bool :=
  (ofText? cs).any fun t ↦ t.padded || t.clock?.isSome

/-! ### Values -/

/-- The microseconds of the places of a second, of which six count. -/
def microsecondOf (places : List Char) : Fin 1000000 :=
  let six := places.take 6 ++ List.replicate (6 - places.length) '0'
  Fin.ofNat 1000000 ((natOfText? 10 six).getD 0)

/-- The day or the point in time that a timestamp stands for. -/
def toScalar (t : Timestamp) : Except CalendarError Scalar := do
  match t.clock? with
  | none => return .date (← Date.ofNumbers t.year t.month t.day)
  | some clock =>
    let offset? ← clock.offset?.mapM ClockOffset.ofMinutes
    let date ← Date.ofNumbers t.year t.month t.day
    let time ← TimeOfDay.ofNumbers clock.hour clock.minute clock.second
      (microsecondOf clock.places)
    return .moment { date, time, offset? }

end Timestamp

end SchemeStyle.Yaml
