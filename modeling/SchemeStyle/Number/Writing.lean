/-!
# Integers as they are written

An integer may be written with so many digits only. The limit is a setting of the machine, which may
do without one. What holds an integer that is too long for it cannot be shown, and neither can a
collection that is nested too deep.
-/

namespace SchemeStyle

/-- Why something cannot be shown. -/
inductive ShowError where
  /-- An integer has more digits than the limit. -/
  | tooManyDigits (limit : Nat)
  /-- Collections are nested too deep. -/
  | tooDeep
  deriving DecidableEq, Repr

/-- The words of a report. -/
def ShowError.message : ShowError → String
  | tooManyDigits limit =>
    s!"Exceeds the limit ({limit} digits) for integer string conversion; " ++
      "use sys.set_int_max_str_digits() to increase the limit"
  | tooDeep => "maximum recursion depth exceeded while getting the repr of an object"

/-- The greatest number of digits that an integer may be written with, in a base that is no power
of two, unless the machine is set otherwise. -/
def longestInteger : Nat := 4300

/-- Whether an integer has no more digits than the limit, if there is one. -/
def isWritable (limit? : Option Nat) (n : Int) : Bool :=
  limit?.all fun limit ↦ n.natAbs < Nat.pow 10 limit

/-- An integer in decimal digits. -/
def writeInteger (limit? : Option Nat) (n : Int) : Except ShowError String :=
  match limit? with
  | none => .ok (toString n)
  | some limit =>
    if n.natAbs < Nat.pow 10 limit then .ok (toString n) else .error (.tooManyDigits limit)

theorem writeInteger_eq (limit? : Option Nat) (n : Int) :
    writeInteger limit? n =
      if isWritable limit? n then .ok (toString n)
      else .error (.tooManyDigits (limit?.getD 0)) := by
  cases limit? with
  | none => rfl
  | some limit => simp [writeInteger, isWritable]

end SchemeStyle
