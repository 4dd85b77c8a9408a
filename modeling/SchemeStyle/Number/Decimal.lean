/-!
# Decimal numbers

A decimal number is an integer shifted by a power of ten. This module reads the usual notation with
a point and an exponent and writes the digits of a natural number.
-/

namespace SchemeStyle

/-! ### Digits -/

/-- The value of a run of digits, most significant first, with `digit` as the value of each. -/
def ofDigits (base : Nat) (digits : List Nat) : Nat :=
  digits.foldl (fun value digit ↦ value * base + digit) 0

/-- The value of a digit of up to sixteen, in either case. -/
def digitValue? (c : Char) : Option Nat :=
  if '0' ≤ c ∧ c ≤ '9' then some (c.toNat - '0'.toNat)
  else if 'a' ≤ c ∧ c ≤ 'f' then some (c.toNat - 'a'.toNat + 10)
  else if 'A' ≤ c ∧ c ≤ 'F' then some (c.toNat - 'A'.toNat + 10)
  else none

/-- The value of a nonempty text that consists of digits of the base. -/
def natOfText? (base : Nat) (cs : List Char) : Option Nat := do
  let digits ← cs.mapM digitValue?
  if digits.isEmpty || digits.any (base ≤ ·) then none else some (ofDigits base digits)

/-! ### Decimals -/

/-- The number `digits * 10 ^ exponent`, with a sign that zero may have too. -/
structure Decimal where
  negative : Bool := false
  digits : Nat
  exponent : Int
  deriving DecidableEq, Repr

namespace Decimal

/-- Takes a sign off the front of a text. -/
def splitSign : List Char → Bool × List Char
  | '-' :: cs => (true, cs)
  | '+' :: cs => (false, cs)
  | cs => (false, cs)

/-- Reads the exponent of a decimal, from the letter on. An empty text is the exponent zero. -/
def exponentOfText? : List Char → Option Int
  | [] => some 0
  | c :: cs =>
    if c = 'e' ∨ c = 'E' then
      let (negative, digits) := splitSign cs
      (natOfText? 10 digits).map fun n ↦ if negative then -(n : Int) else n
    else none

/-- Reads a decimal: an optional sign, digits with at most one point among them, and an optional
exponent. -/
def ofText? (cs : List Char) : Option Decimal := do
  let (negative, cs) := splitSign cs
  let whole := cs.takeWhile Char.isDigit
  let rest := cs.dropWhile Char.isDigit
  let (fraction, rest) :=
    match rest with
    | '.' :: cs => (cs.takeWhile Char.isDigit, cs.dropWhile Char.isDigit)
    | cs => ([], cs)
  let digits ← natOfText? 10 (whole ++ fraction)
  let exponent ← exponentOfText? rest
  some ⟨negative, digits, exponent - fraction.length⟩

end Decimal

end SchemeStyle
