import SchemeStyle.Text.Utf8

/-!
# Lines of a text

A newline ends a line, and nothing else does once the line endings of other systems are turned into
newlines. A text that ends in a newline has no further line after it, and a last line need not be
ended. When a text comes out of a file, it is read as UTF-8.
-/

namespace SchemeStyle

/-! ### Texts -/

/-- The lines of a text, without the newlines that end them. -/
def splitLines : List Char → List (List Char)
  | [] => []
  | c :: cs =>
    if c = '\n' then [] :: splitLines cs
    else
      match splitLines cs with
      | [] => [[c]]
      | line :: rest => (c :: line) :: rest

/-- A newline ends the line before it, whatever follows. -/
theorem splitLines_append_newline {line : List Char} (h : '\n' ∉ line) (rest : List Char) :
    splitLines (line ++ '\n' :: rest) = line :: splitLines rest := by
  induction line with
  | nil => simp [splitLines]
  | cons c cs ih =>
    simp only [List.mem_cons, not_or] at h
    simp [splitLines, Ne.symm h.1, ih h.2]

/-- A line holds no newline. -/
theorem newline_notMem_of_mem_splitLines {cs line : List Char} (h : line ∈ splitLines cs) :
    '\n' ∉ line := by
  induction cs generalizing line with
  | nil => simp [splitLines] at h
  | cons c cs ih =>
    rw [splitLines] at h
    split at h
    · rcases List.mem_cons.1 h with rfl | h
      · simp
      · exact ih h
    case isFalse hc =>
      split at h
      case h_1 =>
        obtain rfl := List.mem_singleton.1 h
        simpa using Ne.symm hc
      case h_2 first rest heq =>
        rcases List.mem_cons.1 h with rfl | h
        · simpa [Ne.symm hc] using ih (heq ▸ List.mem_cons_self)
        · exact ih (heq ▸ List.mem_cons_of_mem _ h)

/-- The lines of a text that a newline ends, without those newlines. -/
def completeLines (cs : List Char) : List (List Char) :=
  if cs.getLast? = some '\n' then splitLines cs else (splitLines cs).dropLast

/-- Turns every line ending, a carriage return with or without a newline after it, into a
newline. -/
def normalizeNewlines : List Char → List Char
  | [] => []
  | '\r' :: '\n' :: cs => '\n' :: normalizeNewlines cs
  | c :: cs => (if c = '\r' then '\n' else c) :: normalizeNewlines cs

/-- A text that is one line and its newline, without that newline. -/
def lineContent? (cs : List Char) : Option (List Char) :=
  if cs.getLast? = some '\n' then some cs.dropLast else none

/-- A text that is one line, without the newline at its end, if it has one. -/
def lineContent (cs : List Char) : List Char :=
  (lineContent? cs).getD cs

/-! ### Files -/

/-- What reading a text from a file delivers: characters, and the error that ends them. -/
structure TextStream where
  chars : List Char := []
  error? : Option Utf8.Error := none
  deriving DecidableEq, Repr

/-- The number of bytes that are read at once. -/
def chunkSize : Nat := 8192

/-- The byte at which an error is noticed, or the end of all bytes. Where the first two bytes of
half a surrogate pair come, the error is not noticed before the byte after them. -/
def noticedAt (bytes : List UInt8) (e : Utf8.Error) : Nat :=
  match e.reason with
  | .invalidStart => e.start
  | .invalidContinuation =>
    if e.first = 0xED ∧ (bytes[e.start + 1]?).any (fun b ↦ 0xA0 ≤ b ∧ b ≤ 0xBF) then e.start + 2
    else e.start + 1 + e.more
  | .unexpectedEnd => bytes.length

/-- The number of bytes that have been decoded before an error is noticed: those of the chunks
before its own, or all of them if it is noticed at the end only. -/
def settledCount (bytes : List UInt8) (e : Utf8.Error) : Nat :=
  if noticedAt bytes e < bytes.length then noticedAt bytes e / chunkSize * chunkSize
  else bytes.length

/-- The characters that are delivered before the rest of the text is known. A carriage return at
their end is not, since a newline might still follow. -/
def settledChars (chars : List Char) : List Char :=
  normalizeNewlines (if chars.getLast? = some '\r' then chars.dropLast else chars)

/-- Reads the text of a file chunk by chunk. The bytes of a character that the chunks before have
cut off are decoded with the next chunk, and an error in it is counted from them. -/
def readStream (bytes : List UInt8) : TextStream :=
  let decoded := Utf8.decode bytes
  match decoded.error? with
  | none => { chars := normalizeNewlines decoded.chars }
  | some e =>
    let count := settledCount bytes e
    let before := Utf8.decode (bytes.take count)
    let origin := (before.error?.map Utf8.Error.start).getD count
    { chars := settledChars before.chars, error? := some { e with start := e.start - origin } }

/-- What reading a file line by line delivers: lines, and the error that ends them. -/
structure Reading where
  lines : List (List Char) := []
  error? : Option Utf8.Error := none
  deriving DecidableEq, Repr

/-- Reads the lines of a file. The line that an error interrupts is not delivered. -/
def readLines (bytes : List UInt8) : Reading :=
  let stream := readStream bytes
  match stream.error? with
  | none => { lines := splitLines stream.chars }
  | some e => { lines := completeLines stream.chars, error? := some e }

end SchemeStyle
