/-!
# UTF-8

A decoder for UTF-8 that says where and why it stops. It reads one byte at a time and remembers how
many bytes are owed to the character begun. The first owed byte is confined further after some
leading bytes, which keeps out overlong forms, surrogates and numbers beyond the last code point.
-/

namespace SchemeStyle.Utf8

/-- Why bytes are not UTF-8. -/
inductive Reason where
  /-- A byte that begins no character. -/
  | invalidStart
  /-- A byte that cannot follow the ones before it. -/
  | invalidContinuation
  /-- The end of the bytes inside a character. -/
  | unexpectedEnd
  deriving DecidableEq, Repr

/-- The words of a report. -/
def Reason.message : Reason → String
  | invalidStart => "invalid start byte"
  | invalidContinuation => "invalid continuation byte"
  | unexpectedEnd => "unexpected end of data"

/-- A place where bytes are not UTF-8. -/
structure Error where
  reason : Reason
  /-- Where the sequence at fault starts. -/
  start : Nat
  /-- The first byte of the sequence at fault. -/
  first : UInt8
  /-- How many further bytes belong to that sequence: all that were in order so far. -/
  more : Nat
  deriving DecidableEq, Repr

/-- The words of a report. -/
def Error.message (e : Error) : String :=
  let place :=
    if e.more = 0 then
      s!"byte 0x" ++ hexByte e.first ++ s!" in position {e.start}"
    else s!"bytes in position {e.start}-{e.start + e.more}"
  "'utf-8' codec can't decode " ++ place ++ ": " ++ e.reason.message
where
  /-- A byte as two digits. -/
  hexByte (b : UInt8) : String :=
    let digits := Nat.toDigits 16 b.toNat
    String.ofList (List.replicate (2 - digits.length) '0' ++ digits)

/-! ### The automaton -/

/-- A character begun and not finished. -/
structure Pending where
  /-- Its first byte. -/
  first : UInt8
  /-- How many bytes were read after the first. -/
  read : Nat
  /-- How many bytes are owed, at least one. -/
  owed : Nat
  /-- The least and the greatest byte that may come next. -/
  low : UInt8
  high : UInt8
  /-- The bits read so far. -/
  bits : Nat
  deriving DecidableEq, Repr

/-- What a leading byte begins: a character of its own, one that owes further bytes, or nothing. -/
inductive Lead where
  | char (c : Char)
  | pending (p : Pending)
  | invalid
  deriving DecidableEq, Repr

/-- Reads a leading byte. -/
def lead (b : UInt8) : Lead :=
  if b < 0x80 then .char (Char.ofNat b.toNat)
  else if b < 0xC2 then .invalid
  else if b < 0xE0 then .pending ⟨b, 0, 1, 0x80, 0xBF, b.toNat - 0xC0⟩
  else if b < 0xF0 then
    .pending ⟨b, 0, 2, if b = 0xE0 then 0xA0 else 0x80, if b = 0xED then 0x9F else 0xBF,
      b.toNat - 0xE0⟩
  else if b < 0xF5 then
    .pending ⟨b, 0, 3, if b = 0xF0 then 0x90 else 0x80, if b = 0xF4 then 0x8F else 0xBF,
      b.toNat - 0xF0⟩
  else .invalid

/-- The characters before the first error, and the error. -/
structure Decoded where
  chars : List Char := []
  error? : Option Error := none
  deriving DecidableEq, Repr

/-- The result with a character in front. -/
def Decoded.cons (c : Char) (d : Decoded) : Decoded := { d with chars := c :: d.chars }

/-- Decodes the bytes from the given position on, inside a character or between two. -/
def decodeFrom : Nat → Option Pending → List UInt8 → Decoded
  | _, none, [] => {}
  | position, none, b :: bs =>
    match lead b with
    | .char c => (decodeFrom (position + 1) none bs).cons c
    | .pending p => decodeFrom (position + 1) (some p) bs
    | .invalid => { error? := some ⟨.invalidStart, position, b, 0⟩ }
  | position, some p, [] =>
    { error? := some ⟨.unexpectedEnd, position - 1 - p.read, p.first, p.read⟩ }
  | position, some p, b :: bs =>
    if b < p.low ∨ p.high < b then
      { error? := some ⟨.invalidContinuation, position - 1 - p.read, p.first, p.read⟩ }
    else
      let bits := p.bits * 64 + (b.toNat - 0x80)
      if p.owed = 1 then (decodeFrom (position + 1) none bs).cons (Char.ofNat bits)
      else
        decodeFrom (position + 1) (some ⟨p.first, p.read + 1, p.owed - 1, 0x80, 0xBF, bits⟩) bs

/-- Decodes bytes. -/
def decode (bytes : List UInt8) : Decoded := decodeFrom 0 none bytes

end SchemeStyle.Utf8
