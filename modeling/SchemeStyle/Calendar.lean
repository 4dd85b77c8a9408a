/-!
# Days and points in time

A day of the Gregorian calendar, which is taken to reach back to the year 1, and a point in time: a
day, a time of day and, where it is known, how far the local clock is ahead of universal time. All
three carry proofs that their numbers are in range. They are made from numbers by a check that says
which number is at fault, and written with all their digits, the greatest unit first.
-/

namespace SchemeStyle

/-- Why numbers are no point in time. -/
inductive CalendarError where
  | year (year : Nat)
  | month
  | day
  | hour
  | minute
  | second
  /-- A clock that is ahead or behind by a whole day or more. -/
  | offset (minutes : Int)
  deriving DecidableEq, Repr

/-- A number with zeros in front up to a width. -/
def paddedNumber (width n : Nat) : String :=
  let digits := Nat.toDigits 10 n
  String.ofList (List.replicate (width - digits.length) '0' ++ digits)

/-! ### Days -/

/-- Whether a year has a 29th of February. -/
def isLeapYear (year : Nat) : Bool :=
  year % 4 == 0 && (year % 100 != 0 || year % 400 == 0)

/-- The number of days of a month. -/
def daysInMonth (year month : Nat) : Nat :=
  if month = 2 then if isLeapYear year then 29 else 28
  else if [4, 6, 9, 11].contains month then 30
  else 31

/-- A day. -/
structure Date where
  year : Nat
  month : Nat
  day : Nat
  one_le_year : 1 ≤ year
  month_mem : 1 ≤ month ∧ month ≤ 12
  day_mem : 1 ≤ day ∧ day ≤ daysInMonth year month
  deriving DecidableEq, Repr

namespace Date

/-- The day with the given numbers. -/
def ofNumbers (year month day : Nat) : Except CalendarError Date :=
  if hy : 1 ≤ year then
    if hm : 1 ≤ month ∧ month ≤ 12 then
      if hd : 1 ≤ day ∧ day ≤ daysInMonth year month then .ok ⟨year, month, day, hy, hm, hd⟩
      else .error .day
    else .error .month
  else .error (.year year)

/-- The number of days up to this one, from the first day of the year 1 on. -/
def ordinal (d : Date) : Nat :=
  let before := d.year - 1
  before * 365 + before / 4 - before / 100 + before / 400 +
    (List.range (d.month - 1)).foldl (fun days m ↦ days + daysInMonth d.year (m + 1)) d.day

/-- The day as year, month and day. -/
def toText (d : Date) : String :=
  "-".intercalate [paddedNumber 4 d.year, paddedNumber 2 d.month, paddedNumber 2 d.day]

end Date

/-! ### Times of day -/

/-- A time of day on a clock that knows no leap seconds. -/
structure TimeOfDay where
  hour : Nat
  minute : Nat
  second : Nat
  microsecond : Nat
  hour_lt : hour < 24
  minute_lt : minute < 60
  second_lt : second < 60
  microsecond_lt : microsecond < 1000000
  deriving DecidableEq, Repr

namespace TimeOfDay

/-- The time of day with the given numbers. -/
def ofNumbers (hour minute second : Nat) (microsecond : Fin 1000000) :
    Except CalendarError TimeOfDay :=
  if hh : hour < 24 then
    if hm : minute < 60 then
      if hs : second < 60 then
        .ok ⟨hour, minute, second, microsecond, hh, hm, hs, microsecond.isLt⟩
      else .error .second
    else .error .minute
  else .error .hour

/-- The number of microseconds since the start of the day. -/
def microseconds (t : TimeOfDay) : Nat :=
  ((t.hour * 60 + t.minute) * 60 + t.second) * 1000000 + t.microsecond

/-- The time as hour, minute and second, with six places of a second unless they are zero. -/
def toText (t : TimeOfDay) : String :=
  let whole := ":".intercalate
    [paddedNumber 2 t.hour, paddedNumber 2 t.minute, paddedNumber 2 t.second]
  if t.microsecond = 0 then whole else whole ++ "." ++ paddedNumber 6 t.microsecond

end TimeOfDay

/-! ### Points in time -/

/-- How many minutes a local clock is ahead of universal time: less than a day either way. -/
structure ClockOffset where
  minutes : Int
  minutes_mem : -1440 < minutes ∧ minutes < 1440
  deriving DecidableEq, Repr

namespace ClockOffset

/-- The offset of a number of minutes. -/
def ofMinutes (minutes : Int) : Except CalendarError ClockOffset :=
  if h : -1440 < minutes ∧ minutes < 1440 then .ok ⟨minutes, h⟩ else .error (.offset minutes)

/-- The offset as its sign, hours and minutes. -/
def toText (o : ClockOffset) : String :=
  let minutes := o.minutes.natAbs
  (if o.minutes < 0 then "-" else "+") ++
    ":".intercalate [paddedNumber 2 (minutes / 60), paddedNumber 2 (minutes % 60)]

end ClockOffset

/-- A point in time on a local clock, of which it may be known how it relates to others. -/
structure Moment where
  date : Date
  time : TimeOfDay
  offset? : Option ClockOffset := none
  deriving DecidableEq, Repr

namespace Moment

/-- The number of microseconds that the local clock has counted. -/
def localCount (m : Moment) : Int :=
  m.date.ordinal * 86400000000 + m.time.microseconds

/-- Whether two points in time are the same. Clocks of which only one is known are not compared. -/
def sameInstant (a b : Moment) : Bool :=
  match a.offset?, b.offset? with
  | none, none => a.localCount == b.localCount
  | some x, some y =>
    a.localCount - x.minutes * 60000000 == b.localCount - y.minutes * 60000000
  | _, _ => false

/-- The point in time as its day, its time and, where it is known, its offset. -/
def toText (m : Moment) : String :=
  m.date.toText ++ " " ++ m.time.toText ++ (m.offset?.map ClockOffset.toText).getD ""

end Moment

end SchemeStyle
