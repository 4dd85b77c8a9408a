/-!
# Bytes written in base 64

Four digits of six bits stand for three bytes. A last group of two or three digits is filled up with
equals signs, and what comes after it is not read. Any other character is skipped.
-/

namespace SchemeStyle.Base64

/-- The value of a digit. -/
def digit? (c : Char) : Option Nat :=
  if 'A' ≤ c ∧ c ≤ 'Z' then some (c.toNat - 'A'.toNat)
  else if 'a' ≤ c ∧ c ≤ 'z' then some (c.toNat - 'a'.toNat + 26)
  else if '0' ≤ c ∧ c ≤ '9' then some (c.toNat - '0'.toNat + 52)
  else if c = '+' then some 62
  else if c = '/' then some 63
  else none

/-- The number of values of the bits that the next digit leaves over, if some digits of its group
were read before it. -/
def leftover (filled : Nat) : Nat :=
  if filled = 1 then 16 else if filled = 2 then 4 else 1

/-- Decodes from inside a group of which `filled` digits were read. Their bits that belong to no
byte so far are `left`, and `pads` equals signs stand after them. -/
def decodeFrom (filled left pads : Nat) : List Char → Option (List UInt8)
  | [] => if filled = 0 then some [] else none
  | c :: cs =>
    if c = '=' then
      if filled < 2 then decodeFrom filled left pads cs
      else if 4 ≤ filled + pads + 1 then some []
      else decodeFrom filled left (pads + 1) cs
    else
      match digit? c with
      | none => decodeFrom filled left pads cs
      | some n =>
        if filled = 0 then decodeFrom 1 n 0 cs
        else
          let bits := left * 64 + n
          let byte := UInt8.ofNat (bits / leftover filled)
          (decodeFrom ((filled + 1) % 4) (bits % leftover filled) 0 cs).map (byte :: ·)

/-- Decodes a text, which has to end after a group. -/
def decode? (cs : List Char) : Option (List UInt8) := decodeFrom 0 0 0 cs

end SchemeStyle.Base64
