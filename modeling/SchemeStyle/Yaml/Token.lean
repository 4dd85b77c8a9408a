import SchemeStyle.Text.Utf8
import SchemeStyle.Yaml.ScalarText

/-!
# YAML tokens

A YAML text as a list of tokens, in which the structure that the text expresses by indentation is
explicit: block collections have a start and an end. What makes YAML hard to read from left to
right is that a mapping shows itself by the colon after its first key. So every token that may
start a key is remembered, and the tokens that announce the key are put in front of it when the
colon comes. Such a key has to end on its line and within 1024 characters.
-/

namespace SchemeStyle.Yaml

/-! ### Tokens -/

/-- A line of instructions before a document. -/
inductive Directive where
  | version (major : Nat)
  | tagHandle (handle stem : String)
  | other
  deriving DecidableEq, Repr

/-- A piece of a YAML text. -/
inductive Token where
  | directive (d : Directive)
  | documentStart
  | documentEnd
  | blockSequenceStart
  | blockMappingStart
  | blockEnd
  | flowSequenceStart
  | flowSequenceEnd
  | flowMappingStart
  | flowMappingEnd
  | blockEntry
  | flowEntry
  | key
  | value
  | alias (name : String)
  | anchor (name : String)
  /-- A tag, given by a handle and what follows it, or without a handle in full. -/
  | tag (handle : Option String) (suffix : String)
  | scalar (plain : Bool) (text : String)
  /-- A quoted scalar with an escaped code point that does not exist. Nothing is read after it. -/
  | beyond (code : Nat)
  deriving DecidableEq, Repr

/-! ### Names -/

/-- The characters of a tag besides letters and digits. -/
def tagCharacters : String := "-;/?:@&=+$,_.!~*'()[]%"

/-- Reads the name of an anchor or an alias, and checks that it ends where a name may. -/
def anchorName (c : Cursor) : Option (String × Cursor) :=
  let name := c.run isNameChar
  let after := c.skip name.length
  let ends := separates (after.peek 0) ||
    ((after.peek 0).any fun ch ↦ "?:,]\x7d%@`".contains ch)
  if name.isEmpty ∨ ¬ends then none else some (String.ofList name, after)

/-- The bytes of a tag, of which some may be escaped. -/
def tagBytes : List Char → Option (List UInt8)
  | '%' :: a :: b :: cs => do
    let n ← natOfText? 16 [a, b]
    some (UInt8.ofNat n :: (← tagBytes cs))
  | '%' :: _ => none
  | c :: cs => do some (UInt8.ofNat c.toNat :: (← tagBytes cs))
  | [] => some []

/-- Reads the text of a tag after its handle. -/
def tagText (c : Cursor) : Option (String × Cursor) := do
  let text := c.run fun ch ↦ ch.isAlphanum || tagCharacters.contains ch
  guard !text.isEmpty
  let decoded := Utf8.decode (← tagBytes text)
  guard decoded.error?.isNone
  some (String.ofList decoded.chars, c.skip text.length)

/-- Reads a tag handle: an exclamation mark, or a name between two. -/
def tagHandle (c : Cursor) : Option (String × Cursor) := do
  guard (c.peek 0 == some '!')
  if c.peek 1 = some ' ' then some ("!", c.next)
  else
    let name := c.next.run isNameChar
    let after := c.next.skip name.length
    if after.peek 0 = some '!' then some (String.ofList ('!' :: name ++ ['!']), after.next)
    else none

/-- Reads a tag. -/
def tag (c : Cursor) : Option (Token × Cursor) := do
  let (token, after) ← (
    if c.peek 1 = some '<' then do
      let (text, after) ← tagText (c.skip 2)
      guard (after.peek 0 == some '>')
      some (Token.tag none text, after.next)
    else if separates (c.peek 1) then some (Token.tag none "!", c.next)
    else
      let word := c.next.run fun ch ↦ !isSpace ch || ch == '\t'
      do
        let (handle, rest) ← if word.contains '!' then tagHandle c else some ("!", c.next)
        let (text, after) ← tagText rest
        some (Token.tag (some handle) text, after))
  guard (separates (after.peek 0) && after.peek 0 != some '\t')
  some (token, after)

/-! ### Directives -/

/-- Reads a directive from the character after its percent sign on. -/
def directive (c : Cursor) : Option (Directive × Cursor) := do
  let name := String.ofList (c.run isNameChar)
  let c := c.skip name.length
  guard (!name.isEmpty && separates (c.peek 0) && c.peek 0 != some '\t')
  let (d, c) ← (
    if name = "YAML" then do
      let c := c.skipSpaces
      let major := c.run Char.isDigit
      let c := c.skip major.length
      guard (c.peek 0 == some '.')
      let minor := c.next.run Char.isDigit
      let c := c.next.skip minor.length
      let n ← natOfText? 10 major
      guard (!minor.isEmpty && separates (c.peek 0) && c.peek 0 != some '\t')
      some (Directive.version n, c)
    else if name = "TAG" then do
      let (handle, c) ← tagHandle c.skipSpaces
      guard (c.peek 0 == some ' ')
      let (stem, c) ← tagText c.skipSpaces
      guard (separates (c.peek 0) && c.peek 0 != some '\t')
      some (Directive.tagHandle handle stem, c)
    else some (Directive.other, c.skipWhile fun ch ↦ !isBreak ch))
  some (d, ← c.skipLine?)

/-! ### The lexer -/

/-- A place where a key may have started. -/
structure PossibleKey where
  /-- The number of tokens before it. -/
  token : Nat
  /-- Whether something has to be a key here, because nothing else may start in this column. -/
  required : Bool
  place : Cursor
  deriving DecidableEq, Repr

/-- What is known on the way through a text. -/
structure Lexer where
  cursor : Cursor
  tokens : List Token := []
  /-- The column of the innermost open block collection, and those of the ones around it. -/
  indent : Int := -1
  outer : List Int := []
  /-- Whether a key may start at the next token. -/
  keyAllowed : Bool := true
  /-- The possible key among the tokens since the last bracket, and those outside each of the
  brackets that are open. -/
  possible : Option PossibleKey := none
  brackets : List (Option PossibleKey) := []
  /-- Whether the last token is one after which nothing is read. -/
  stopped : Bool := false
  deriving DecidableEq, Repr

namespace Lexer

/-- Whether the text is inside brackets, where indentation means nothing. -/
def inFlow (l : Lexer) : Bool := !l.brackets.isEmpty

/-- Appends a token and moves on. -/
def emit (token : Token) (cursor : Cursor) (l : Lexer) : Lexer :=
  { l with tokens := l.tokens ++ [token], cursor := cursor }

/-- Puts tokens in front of those from a position on. -/
def insertAt (position : Nat) (tokens : List Token) (l : Lexer) : Lexer :=
  { l with tokens := l.tokens.take position ++ tokens ++ l.tokens.drop position }

/-- Skips spaces, comments and line breaks. Outside brackets, a key may start on a new line. -/
def skipToToken : Nat → Lexer → Lexer
  | 0, l => l
  | fuel + 1, l =>
    match l.cursor.skipComment.takeBreak? with
    | some (_, c) =>
      skipToToken fuel { l with cursor := c, keyAllowed := l.keyAllowed || !l.inFlow }
    | none => { l with cursor := l.cursor.skipComment }

/-! ### Keys -/

/-- Gives up a possible key that is too far back. -/
def refresh (c : Cursor) : Option PossibleKey → Option (Option PossibleKey)
  | none => some none
  | some k =>
    if k.place.line ≠ c.line ∨ 1024 < c.index - k.place.index then
      if k.required then none else some none
    else some (some k)

/-- Gives up all possible keys that are too far back. -/
def dropStaleKeys (l : Lexer) : Option Lexer := do
  let possible ← refresh l.cursor l.possible
  let brackets ← l.brackets.mapM (refresh l.cursor)
  some { l with possible := possible, brackets := brackets }

/-- Gives up the possible key. -/
def dropKey (l : Lexer) : Option Lexer :=
  match l.possible with
  | some k => if k.required then none else some { l with possible := none }
  | none => some l

/-- Remembers that a key may start here. -/
def noteKey (l : Lexer) : Option Lexer :=
  if l.keyAllowed then do
    let l ← l.dropKey
    let required := !l.inFlow && l.indent == l.cursor.column
    some { l with possible := some ⟨l.tokens.length, required, l.cursor⟩ }
  else some l

/-! ### Block collections -/

/-- Ends the block collections that are indented further than a column. -/
def unwindTo (column : Int) : Int → List Int → List Token → Int × List Int × List Token
  | indent, [], tokens => (indent, [], tokens)
  | indent, next :: outer, tokens =>
    if column < indent then unwindTo column next outer (tokens ++ [.blockEnd])
    else (indent, next :: outer, tokens)

/-- Ends the block collections that are indented further than a column. -/
def unwind (column : Int) (l : Lexer) : Lexer :=
  if l.inFlow then l
  else
    let (indent, outer, tokens) := unwindTo column l.indent l.outer l.tokens
    { l with indent := indent, outer := outer, tokens := tokens }

/-- Starts a block collection at a column and a position among the tokens, if the innermost one is
not there already. -/
def openBlock (column : Nat) (position : Nat) (start : Token) (l : Lexer) : Lexer :=
  if l.indent < column then
    { l.insertAt position [start] with indent := column, outer := l.indent :: l.outer }
  else l

/-! ### One token -/

/-- Starts or ends a document, after ending all block collections. -/
def documentMark (token : Token) (l : Lexer) : Option Lexer := do
  let l ← (l.unwind (-1)).dropKey
  some { l.emit token (l.cursor.skip 3) with keyAllowed := false }

/-- Reads a directive, after ending all block collections. -/
def directiveLine (l : Lexer) : Option Lexer := do
  let l ← (l.unwind (-1)).dropKey
  let (d, c) ← directive l.cursor.next
  some { l.emit (.directive d) c with keyAllowed := false }

/-- Opens a bracket. -/
def openBracket (token : Token) (l : Lexer) : Option Lexer := do
  let l ← l.noteKey
  some { l.emit token l.cursor.next with
    possible := none, brackets := l.possible :: l.brackets, keyAllowed := true }

/-- Closes a bracket. -/
def closeBracket (token : Token) (l : Lexer) : Option Lexer := do
  let l ← l.dropKey
  match l.brackets with
  | [] => none
  | possible :: brackets =>
    some { l.emit token l.cursor.next with
      possible := possible, brackets := brackets, keyAllowed := false }

/-- A comma inside brackets. -/
def flowEntry (l : Lexer) : Option Lexer := do
  let l ← l.dropKey
  some { l.emit .flowEntry l.cursor.next with keyAllowed := true }

/-- A dash before an item of a block sequence. -/
def blockEntry (l : Lexer) : Option Lexer := do
  guard (l.inFlow || l.keyAllowed)
  let l := if l.inFlow then l else l.openBlock l.cursor.column l.tokens.length .blockSequenceStart
  let l ← l.dropKey
  some { l.emit .blockEntry l.cursor.next with keyAllowed := true }

/-- A question mark before a key. -/
def explicitKey (l : Lexer) : Option Lexer := do
  guard (l.inFlow || l.keyAllowed)
  let l := if l.inFlow then l else l.openBlock l.cursor.column l.tokens.length .blockMappingStart
  let l ← l.dropKey
  some { l.emit .key l.cursor.next with keyAllowed := !l.inFlow }

/-- A colon before a value. The possible key becomes a key. -/
def valueMark (l : Lexer) : Option Lexer :=
  match l.possible with
  | some k =>
    let l := { l.insertAt k.token [.key] with possible := none }
    let l := if l.inFlow then l else l.openBlock k.place.column k.token .blockMappingStart
    some { l.emit .value l.cursor.next with keyAllowed := false }
  | none => do
    guard (l.inFlow || l.keyAllowed)
    let l := if l.inFlow then l else l.openBlock l.cursor.column l.tokens.length .blockMappingStart
    some { l.emit .value l.cursor.next with keyAllowed := !l.inFlow }

/-- A token that may start a key: an alias, an anchor, a tag. -/
def keyStart (read : Cursor → Option (Token × Cursor)) (l : Lexer) : Option Lexer := do
  let l ← l.noteKey
  let (token, c) ← read l.cursor
  some { l.emit token c with keyAllowed := false }

/-- A plain scalar or a quoted one. -/
def scalarToken (isPlain : Bool) (read : Cursor → Option Scanned) (l : Lexer) : Option Lexer := do
  let l ← l.noteKey
  let s ← read l.cursor
  match s.beyond? with
  | some code => some { l.emit (.beyond code) s.after with stopped := true }
  | none =>
    some { l.emit (.scalar isPlain (String.ofList s.text)) s.after with keyAllowed := s.broken }

/-- A block scalar. It cannot be a key, and ends at the start of a line. -/
def blockScalarToken (folded : Bool) (l : Lexer) : Option Lexer := do
  let l ← l.dropKey
  let s ← blockScalar folded l.indent l.cursor.next
  some { l.emit (.scalar false (String.ofList s.text)) s.after with keyAllowed := true }

/-- Whether a plain scalar may start with the next character. Most delimiters cannot start one; a
dash, a question mark and a colon can before something that is no space, the last two outside
brackets only. -/
def startsPlain (l : Lexer) (ch : Char) : Bool :=
  let free := !isSpace ch && !("-?:,[]\x7b\x7d#&*!|>'\"%@`".contains ch)
  free || (!separates (l.cursor.peek 1) && (ch == '-' || (!l.inFlow && (ch == '?' || ch == ':'))))

/-- Reads the token that starts with the next character. -/
def read (l : Lexer) (ch : Char) : Option Lexer :=
  let c := l.cursor
  let marks := l.inFlow || separates (c.peek 1)
  if ch = '%' ∧ c.column = 0 then l.directiveLine
  else if c.column = 0 ∧ c.atMark '-' then l.documentMark .documentStart
  else if c.column = 0 ∧ c.atMark '.' then l.documentMark .documentEnd
  else if ch = '[' then l.openBracket .flowSequenceStart
  else if ch = '\x7b' then l.openBracket .flowMappingStart
  else if ch = ']' then l.closeBracket .flowSequenceEnd
  else if ch = '\x7d' then l.closeBracket .flowMappingEnd
  else if ch = ',' then l.flowEntry
  else if ch = '-' ∧ separates (c.peek 1) then l.blockEntry
  else if ch = '?' ∧ marks then l.explicitKey
  else if ch = ':' ∧ marks then l.valueMark
  else if ch = '*' then
    l.keyStart fun c ↦ (anchorName c.next).map fun (name, c) ↦ (.alias name, c)
  else if ch = '&' then
    l.keyStart fun c ↦ (anchorName c.next).map fun (name, c) ↦ (.anchor name, c)
  else if ch = '!' then l.keyStart tag
  else if ch = '|' ∧ ¬l.inFlow then l.blockScalarToken false
  else if ch = '>' ∧ ¬l.inFlow then l.blockScalarToken true
  else if ch = '\'' then l.scalarToken false fun c ↦ quotedScalar false c.next
  else if ch = '"' then l.scalarToken false fun c ↦ quotedScalar true c.next
  else if l.startsPlain ch then
    l.scalarToken true fun c ↦ some (plain l.inFlow (l.indent + 1) c)
  else none

/-! ### All tokens -/

/-- Reads the rest of a text. -/
def run : Nat → Lexer → Option (List Token)
  | 0, _ => none
  | fuel + 1, l => do
    let l ← (l.skipToToken (l.cursor.rest.length + 1)).dropStaleKeys
    let l := l.unwind l.cursor.column
    match l.cursor.rest with
    | [] => do
      let l ← (l.unwind (-1)).dropKey
      some l.tokens
    | ch :: _ => do
      let l ← l.read ch
      if l.stopped then some l.tokens else run fuel l

end Lexer

/-- The tokens of a text, or nothing if it has a character or a combination of characters that
cannot be read. A byte order mark at the very start is skipped. -/
def Token.ofText? (text : List Char) : Option (List Token) :=
  if text.all isAllowed then
    let start : Cursor := ⟨text, 0, 0, 0⟩
    let start := if text.head? = some '\uFEFF' then start.next else start
    Lexer.run (text.length + 1) { cursor := start }
  else none

end SchemeStyle.Yaml
