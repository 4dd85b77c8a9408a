import SchemeStyle.Number.Decimal
import SchemeStyle.Yaml.Cursor

/-!
# Texts of YAML scalars

The three ways to write a scalar: plain, between quotes, and as an indented block. Each function
reads one scalar from its first character on and yields its text and the place after it. Line
breaks inside a plain or quoted scalar are folded: one break is a space, more are one break less.
Loops over lines are bounded by the length of what is left of the text.
-/

namespace SchemeStyle.Yaml

/-! ### Folding -/

/-- What a line break and the further breaks after it stand for. -/
def fold (first : Char) (more : List Char) : List Char :=
  if first ≠ '\n' then first :: more
  else if more.isEmpty then [' ']
  else more

/-! ### Plain scalars -/

/-- The characters of a plain scalar up to a space. A colon ends it before a space, and before some
delimiters inside brackets; so do the delimiters themselves inside brackets. -/
def plainRun (inFlow : Bool) : List Char → List Char
  | [] => []
  | c :: cs =>
    let colonEnds :=
      separates cs.head? || (inFlow && (cs.head?.any fun next ↦ ",[]\x7b\x7d".contains next))
    if isSpace c || (c == ':' && colonEnds) || (inFlow && ",?[]\x7b\x7d".contains c) then []
    else c :: plainRun inFlow cs

/-- The spaces and breaks inside a plain scalar. -/
structure PlainGap where
  /-- What the gap stands for. A scalar ends at an empty gap. -/
  text : List Char
  /-- Whether the gap has a line break. -/
  broken : Bool
  after : Cursor

/-- The breaks after the first one, and the spaces among them, up to a document mark. -/
def plainBreaks : Nat → Cursor → List Char → Option (List Char) × Cursor
  | 0, c, breaks => (some breaks.reverse, c)
  | fuel + 1, c, breaks =>
    match c.rest with
    | [] => (some breaks.reverse, c)
    | ch :: _ =>
      if ch = ' ' then plainBreaks fuel c.next breaks
      else if isBreak ch then
        if c.next.atDocumentMark then (none, c.next)
        else plainBreaks fuel c.next (breakChar ch :: breaks)
      else (some breaks.reverse, c)

/-- Reads the gap that comes next in a plain scalar. A document mark ends it and leaves it empty. -/
def plainGap (c : Cursor) : PlainGap :=
  let spaces := c.run (· == ' ')
  let c := c.skip spaces.length
  match c.takeBreak? with
  | none => ⟨spaces, false, c⟩
  | some (first, c) =>
    if c.atDocumentMark then ⟨[], true, c⟩
    else
      match plainBreaks c.rest.length c [] with
      | (none, c) => ⟨[], true, c⟩
      | (some more, c) => ⟨fold first more, true, c⟩

/-- A scalar that was read: its text, whether it ended after a line break, and the place after
it. -/
structure Scanned where
  text : List Char
  broken : Bool := false
  after : Cursor
  /-- The escaped code point at which reading stopped, because it does not exist. -/
  beyond? : Option Nat := none

/-- Reads a plain scalar whose further lines have to be indented by at least `indent`. -/
def plain (inFlow : Bool) (indent : Int) (c : Cursor) : Scanned :=
  go (c.rest.length + 1) c [] [] false
where
  /-- Reads on after `gap`. -/
  go : Nat → Cursor → List Char → List Char → Bool → Scanned
    | 0, c, text, _, broken => ⟨text, broken, c, none⟩
    | fuel + 1, c, text, gap, broken =>
      let run := plainRun inFlow c.rest
      if c.peek 0 = some '#' ∨ run.isEmpty then ⟨text, broken, c, none⟩
      else
        let text := text ++ gap ++ run
        let next := plainGap (c.skip run.length)
        if next.text.isEmpty ∨ next.after.peek 0 = some '#' ∨
            (¬inFlow ∧ (next.after.column : Int) < indent) then
          ⟨text, next.broken, next.after, none⟩
        else go fuel next.after text next.text next.broken

/-! ### Quoted scalars -/

/-- The characters that a letter after a backslash stands for. -/
def escapes : List (Char × Char) :=
  [('0', '\x00'), ('a', '\x07'), ('b', '\x08'), ('t', '\t'), ('\t', '\t'), ('n', '\n'),
    ('v', '\x0b'), ('f', '\x0c'), ('r', '\r'), ('e', '\x1b'), (' ', ' '), ('"', '"'),
    ('\\', '\\'), ('/', '/'), ('N', '\x85'), ('_', '\xa0'), ('L', '\u2028'), ('P', '\u2029')]

/-- The greatest code point. -/
def lastCodePoint : Nat := 0x10FFFF

/-- The number of hexadecimal digits after a letter that introduces a code point. -/
def escapeLength? : Char → Option Nat
  | 'x' => some 2
  | 'u' => some 4
  | 'U' => some 8
  | _ => none

/-- The breaks after the first one in a quoted scalar, and the spaces among them. A document mark
may not stand at the start of a line. -/
def quotedBreaks : Nat → Cursor → List Char → Option (List Char × Cursor)
  | 0, _, _ => none
  | fuel + 1, c, breaks =>
    if c.atDocumentMark then none
    else
      let c := c.skipWhile fun ch ↦ ch == ' ' || ch == '\t'
      match c.takeBreak? with
      | some (ch, c) => quotedBreaks fuel c (ch :: breaks)
      | none => some (breaks.reverse, c)

/-- What follows a backslash. -/
inductive Escaped where
  /-- The characters that are meant, and the place after them. -/
  | chars (text : List Char) (after : Cursor)
  /-- A code point after the last one. -/
  | beyond (code : Nat)

/-- Reads what follows a backslash. -/
def escaped (c : Cursor) : Option Escaped := do
  let ch ← c.peek 0
  match escapes.lookup ch with
  | some stood => some (.chars [stood] c.next)
  | none =>
    match escapeLength? ch with
    | some length =>
      let digits := c.next.rest.take length
      let code ← natOfText? 16 digits
      guard (digits.length == length)
      if lastCodePoint < code then some (.beyond code)
      else
        -- A surrogate is no character.
        let stood := if code.isValidChar then Char.ofNat code else '\uFFFD'
        some (.chars [stood] (c.skip (length + 1)))
    | none => do
      let (_, c) ← c.takeBreak?
      let (breaks, c) ← quotedBreaks (c.rest.length + 1) c []
      some (.chars breaks c)

/-- Reads a quoted scalar from the character after its first quote on. -/
def quotedScalar (double : Bool) (c : Cursor) : Option Scanned :=
  go (c.rest.length + 1) c []
where
  /-- Reads on after `text`, which is kept last character first. -/
  go : Nat → Cursor → List Char → Option Scanned
    | 0, _, _ => none
    | fuel + 1, c, text =>
      match c.rest with
      | [] => none
      | ch :: rest =>
        if ch = '"' ∧ double then some ⟨text.reverse, false, c.next, none⟩
        else if ch = '\'' ∧ ¬double then
          if rest.head? = some '\'' then go fuel (c.skip 2) ('\'' :: text)
          else some ⟨text.reverse, false, c.next, none⟩
        else if ch = '\\' ∧ double then
          match escaped c.next with
          | some (.chars stood c) => go fuel c (stood.reverse ++ text)
          | some (.beyond code) => some ⟨text.reverse, false, c, some code⟩
          | none => none
        else if isSpace ch then
          let spaces := c.run fun ch ↦ ch == ' ' || ch == '\t'
          let c := c.skip spaces.length
          match c.takeBreak? with
          | none => go fuel c (spaces.reverse ++ text)
          | some (first, c) =>
            match quotedBreaks (c.rest.length + 1) c [] with
            | some (more, c) => go fuel c ((fold first more).reverse ++ text)
            | none => none
        else go fuel c.next (ch :: text)

/-! ### Block scalars -/

/-- What becomes of the line breaks at the end of a block scalar. -/
inductive Chomping where
  | clip
  | strip
  | keep
  deriving DecidableEq, Repr

/-- The chomping that an indicator asks for. -/
def chomping? : Option Char → Option Chomping
  | some '+' => some .keep
  | some '-' => some .strip
  | _ => none

/-- The indentation, one to nine, that an indicator asks for. -/
def increment? : Option Char → Option Nat
  | some c => if '1' ≤ c ∧ c ≤ '9' then some (c.toNat - '0'.toNat) else none
  | none => none

/-- The indicators of a block scalar, in either order. -/
def indicators (c : Cursor) : Chomping × Option Nat × Cursor :=
  match chomping? (c.peek 0), increment? (c.peek 0) with
  | some chomping, _ =>
    match increment? (c.peek 1) with
    | some n => (chomping, some n, c.skip 2)
    | none => (chomping, none, c.next)
  | none, some n =>
    match chomping? (c.peek 1) with
    | some chomping => (chomping, some n, c.skip 2)
    | none => (.clip, some n, c.next)
  | none, none => (.clip, none, c)

/-- Skips the empty lines before a block whose indentation is not given. Yields their breaks and the
greatest column reached. -/
def leadingBreaks : Nat → Cursor → List Char → Nat → List Char × Nat × Cursor
  | 0, c, breaks, widest => (breaks.reverse, widest, c)
  | fuel + 1, c, breaks, widest =>
    match c.takeBreak? with
    | some (ch, c) => leadingBreaks fuel c (ch :: breaks) widest
    | none =>
      if c.peek 0 = some ' ' then leadingBreaks fuel c.next breaks (max widest (c.column + 1))
      else (breaks.reverse, widest, c)

/-- Skips empty lines of a block, and the indentation of the line after them. -/
def blockBreaks (indent : Nat) : Nat → Cursor → List Char → List Char × Cursor
  | 0, c, breaks => (breaks.reverse, c)
  | fuel + 1, c, breaks =>
    let c := c.skip (min (c.run (· == ' ')).length (indent - c.column))
    match c.takeBreak? with
    | some (ch, c) => blockBreaks indent fuel c (ch :: breaks)
    | none => (breaks.reverse, c)

/-- Whether a line of a block starts with a space or a tab, which keeps the breaks around it from
being folded. -/
def indented (c : Cursor) : Bool :=
  c.peek 0 == some ' ' || c.peek 0 == some '\t'

/-- The lines of a block that were read. -/
structure BlockText where
  /-- The lines with what joins them, up to the end of the last one. -/
  text : List Char
  /-- The break that ends the last line. -/
  last? : Option Char
  /-- The breaks of the empty lines after it. -/
  more : List Char
  after : Cursor

/-- Reads the lines of a block on after `text`, which ended with `last?` and, after it, the empty
lines of `more`. -/
def blockLines (folded : Bool) (indent : Nat) : Nat → BlockText → BlockText
  | 0, b => b
  | fuel + 1, b =>
    let c := b.after
    if c.column ≠ indent ∨ c.rest.isEmpty then b
    else
      let line := c.run fun ch ↦ !isBreak ch
      let text := b.text ++ b.more ++ line
      let (last?, after) :=
        match (c.skip line.length).takeBreak? with
        | some (ch, c) => (some ch, c)
        | none => (none, c.skip line.length)
      let (more, next) := blockBreaks indent (after.rest.length + 1) after []
      if next.column = indent ∧ ¬next.rest.isEmpty then
        let joint :=
          if folded ∧ last? = some '\n' ∧ ¬indented c ∧ ¬indented next then
            if more.isEmpty then [' '] else []
          else last?.toList
        blockLines folded indent fuel ⟨text ++ joint, last?, more, next⟩
      else ⟨text, last?, more, next⟩

/-- Reads a block scalar from the character after its first indicator on, inside a collection of
the given indentation. -/
def blockScalar (folded : Bool) (outer : Int) (c : Cursor) : Option Scanned := do
  let (chomping, increment, c) := indicators c
  guard (separates (c.peek 0) && c.peek 0 != some '\t')
  let c ← c.skipLine?
  let least := max 1 (outer + 1).toNat
  let (breaks, indent, c) :=
    match increment with
    | none =>
      let (breaks, widest, c) := leadingBreaks (c.rest.length + 1) c [] 0
      (breaks, max least widest, c)
    | some n =>
      let indent := least + n - 1
      let (breaks, c) := blockBreaks indent (c.rest.length + 1) c []
      (breaks, indent, c)
  let b := blockLines folded indent (c.rest.length + 1) ⟨[], none, breaks, c⟩
  let ending :=
    match chomping with
    | .strip => []
    | .clip => b.last?.toList
    | .keep => b.last?.toList ++ b.more
  some ⟨b.text ++ ending, true, b.after, none⟩

end SchemeStyle.Yaml
