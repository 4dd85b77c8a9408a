import SchemeStyle.Number.Decimal

/-!
# Binary floating-point numbers

The numbers of the 64-bit binary format as what they mean: a sign, a significand below `2 ^ 53` and
a power of two. Numbers enter the format by `Binary64.round`, to the nearest number and to the one
with the even significand in the middle of two, and leave it by `Binary64.shortest`, which finds
the shortest decimal that is rounded back to the number. All of it is exact arithmetic on natural
numbers.
-/

namespace SchemeStyle

/-- A number of the 64-bit binary format. -/
inductive Binary64 where
  /-- The number `significand * 2 ^ exponent`, with a sign that zero has too. The significand is
  below `2 ^ 53`, the exponent at least `-1074`, and the significand is below `2 ^ 52` only at that
  exponent. -/
  | finite (negative : Bool) (significand : Nat) (exponent : Int)
  | infinity (negative : Bool)
  | nan
  deriving DecidableEq, Repr

/-- The integer nearest to a quotient; the even one if two are equally near. -/
def roundDiv (num den : Nat) : Nat :=
  let q := num / den
  let r := num % den
  if 2 * r < den ∨ (2 * r = den ∧ q % 2 = 0) then q else q + 1

/-- The numerator of `base ^ exponent`. -/
def powNum (base : Nat) (exponent : Int) : Nat := Nat.pow base exponent.toNat

/-- The denominator of `base ^ exponent`. -/
def powDen (base : Nat) (exponent : Int) : Nat := Nat.pow base (-exponent).toNat

/-- The exponent of the greatest power of two that is at most the quotient of two positive
numbers. -/
def floorLog2 (num den : Nat) : Int :=
  let guess : Int := num.log2 - den.log2
  if num * powDen 2 guess < den * powNum 2 guess then guess - 1 else guess

namespace Binary64

/-! ### Into the format -/

/-- The least exponent of the format. -/
def minExponent : Int := -1074

/-- The greatest exponent of the format. -/
def maxExponent : Int := 971

/-- What all significands are below, `2 ^ 53`. -/
def significandLimit : Nat := Nat.pow 2 53

/-- The number nearest to a quotient, with the given sign. -/
def round (negative : Bool) (num den : Nat) : Binary64 :=
  if num = 0 then finite negative 0 minExponent
  else
    let exponent := max (floorLog2 num den - 52) minExponent
    let significand := roundDiv (num * powDen 2 exponent) (den * powNum 2 exponent)
    let (significand, exponent) :=
      if significand = significandLimit then (significandLimit / 2, exponent + 1)
      else (significand, exponent)
    if maxExponent < exponent then infinity negative
    else finite negative significand exponent

/-- The number nearest to a decimal. Decimals far outside the range of the format are decided by
their size alone. -/
def ofDecimal (d : Decimal) : Binary64 :=
  let magnitude : Int := (Nat.toDigits 10 d.digits).length + d.exponent
  if d.digits = 0 ∨ magnitude < -400 then finite d.negative 0 minExponent
  else if 400 < magnitude then infinity d.negative
  else round d.negative (d.digits * powNum 10 d.exponent) (powDen 10 d.exponent)

/-- Reads a number: a decimal, an infinity or a NaN, the names in any case. -/
def ofText? (cs : List Char) : Option Binary64 :=
  let (negative, name) := Decimal.splitSign (cs.map Char.toLower)
  if name = "inf".toList ∨ name = "infinity".toList then some (infinity negative)
  else if name = "nan".toList then some nan
  else (Decimal.ofText? cs).map ofDecimal

/-! ### Comparison and arithmetic -/

/-- Whether the number is zero, of either sign. -/
def isZero : Binary64 → Bool
  | finite _ significand _ => significand == 0
  | _ => false

/-- The number as a quotient of an integer and a natural number, if it is finite. -/
def toRatio? : Binary64 → Option (Int × Nat)
  | finite negative significand exponent =>
    let num := significand * powNum 2 exponent
    some (if negative then -(num : Int) else num, powDen 2 exponent)
  | _ => none

/-- Whether the number is this integer. -/
def equalsInt (x : Binary64) (n : Int) : Bool :=
  match x.toRatio? with
  | some (num, den) => num == n * den
  | none => false

/-- Whether two numbers are numerically equal: zeros of either sign are, and a NaN equals
nothing. -/
def equals (x y : Binary64) : Bool :=
  match x, y with
  | infinity a, infinity b => a == b
  | _, _ =>
    match x.toRatio?, y.toRatio? with
    | some (a, b), some (c, d) => a * d == c * b
    | _, _ => false

/-- Whether the number has a minus sign, which zero may have too. -/
def isNegative : Binary64 → Bool
  | finite negative _ _ | infinity negative => negative
  | nan => false

/-- The number with the other sign. -/
def negate : Binary64 → Binary64
  | finite negative significand exponent => finite (!negative) significand exponent
  | infinity negative => infinity (!negative)
  | nan => nan

/-- The number nearest to a natural number. -/
def ofNat (n : Nat) : Binary64 := round false n 1

/-- The number nearest to the sum. A sum that is zero has a minus sign if both numbers have one. -/
def add (x y : Binary64) : Binary64 :=
  match x.toRatio?, y.toRatio? with
  | some (a, b), some (c, d) =>
    let sum := a * d + c * b
    round (if sum = 0 then x.isNegative && y.isNegative else sum < 0) sum.natAbs (b * d)
  | some _, none => y
  | none, some _ => x
  | none, none => if x = y then x else nan

/-- The number nearest to the product. -/
def mul (x y : Binary64) : Binary64 :=
  let negative := x.isNegative != y.isNegative
  match x.toRatio?, y.toRatio? with
  | some (a, b), some (c, d) => round negative (a.natAbs * c.natAbs) (b * d)
  | _, _ => if x = nan ∨ y = nan ∨ x.isZero ∨ y.isZero then nan else infinity negative

/-! ### The shortest decimal -/

/-- The exponent of the least power of ten that is greater than the quotient of two positive
numbers. -/
def decimalPoint (num den : Nat) : Int :=
  if den ≤ num then (Nat.toDigits 10 (num / den)).length
  else 1 - ((Nat.toDigits 10 ((den - 1) / num)).length : Int)

/-- A decimal on the grid of multiples of `10 ^ grid` that is rounded to the number
`significand * 2 ^ exponent`, if there is one: the nearer one of two, the even one of two that are
equally near. All comparisons are made in quarters of the last binary place, which divide the
interval of what is rounded to the number: it reaches half a place up, and half a place down or, at
a power of two, a quarter, and its ends belong to it if the significand is even. -/
def onGrid? (significand : Nat) (exponent grid : Int) : Option Nat :=
  let quarter := exponent - 2
  let scale := powNum 10 grid * powDen 2 quarter
  let unit := powDen 10 grid * powNum 2 quarter
  let low :=
    4 * significand -
      (if significand = significandLimit / 2 ∧ minExponent < exponent then 1 else 2)
  let high := 4 * significand + 2
  let value := 4 * significand * unit
  let inside (d : Nat) : Bool :=
    if significand % 2 = 0 then low * unit ≤ d * scale && d * scale ≤ high * unit
    else low * unit < d * scale && d * scale < high * unit
  let below := value / scale
  if inside below then
    if inside (below + 1) then some (roundDiv value scale) else some below
  else if inside (below + 1) then some (below + 1)
  else none

/-- Moves the zeros at the end of a number into a power of ten. -/
def stripZeros : Nat → Nat → Int → Nat × Int
  | 0, digits, exponent => (digits, exponent)
  | fuel + 1, digits, exponent =>
    if digits % 10 = 0 then stripZeros fuel (digits / 10) (exponent + 1) else (digits, exponent)

/-- The shortest digits and their power of ten that are rounded to a positive number: those on the
coarsest grid of at most 17 digits that has some. -/
def shortest (significand : Nat) (exponent : Int) : Nat × Int :=
  let point :=
    decimalPoint (significand * powNum 2 exponent) (powDen 2 exponent)
  let found := (List.range 17).findSome? fun n ↦
    let grid := point - (n + 1 : Nat)
    (onGrid? significand exponent grid).map (·, grid)
  match found with
  | some (digits, grid) => stripZeros 17 digits grid
  | none => (0, 0)

end Binary64

end SchemeStyle
