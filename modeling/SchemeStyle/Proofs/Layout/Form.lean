import SchemeStyle.Proofs.Text.Lines
import SchemeStyle.Style

/-!
# Code laid out by the convention

The trees that code is made of, atoms, strings and lists, and the one way to indent them: wherever a
list is broken, the next line starts at the column that the operator of the list demands
(`bodyColumn`). Where it is broken is free, so a tree carries a choice of space or newline between
any two elements. `Form.render` writes a tree from a given column on; a page is a row of trees, each
on lines of its own, with at most one empty line in front.

Nothing here knows of the linter. Columns are counted over the text written so far (`columnAfter`),
and the policy of an operator is looked up in the rules of the style.
-/

namespace SchemeStyle.Layout

/-! ### Trees -/

/-- A symbol, a number, or whatever else is written without delimiters. -/
structure Atom where
  chars : List Char
  ne_nil : chars ≠ []
  plain : ∀ c ∈ chars, c ∉ [' ', '\n', '\t', '\'', '"', ';', '(', ')', '[', ']']

/-- The text of an atom, by which operators are known. -/
def Atom.text (a : Atom) : String := String.ofList a.chars

/-- What stands between the quotes of a string at one place: a character, or a backslash and the
character it escapes. -/
inductive StringPart where
  | plain (c : Char) (h : c ∉ ['"', '\\', '\n', '\t'])
  | escaped (c : Char) (h : c ∉ ['\n', '\t'])

def StringPart.render : StringPart → List Char
  | plain c _ => [c]
  | escaped c _ => ['\\', c]

/-- A string that ends on the line it starts on. -/
structure Literal where
  parts : List StringPart

/-- The text of a string, with its quotes. -/
def Literal.render (l : Literal) : List Char :=
  '"' :: l.parts.flatMap StringPart.render ++ ['"']

/-- The two pairs of delimiters. -/
inductive Bracket where
  | round
  | square
  deriving DecidableEq, Repr

namespace Bracket

def opening : Bracket → Char
  | round => '('
  | square => '['

def closing : Bracket → Char
  | round => ')'
  | square => ']'

end Bracket

/-- What stands between two elements of a list. -/
inductive Break where
  | space
  | newline
  deriving DecidableEq, Repr

mutual

/-- A tree, with the breaks between the elements of its lists. -/
inductive Form where
  | atom (a : Atom)
  | literal (l : Literal)
  | empty (bracket : Bracket)
  | list (bracket : Bracket) (head : Form) (tail : Tail)

/-- The elements of a list after its first, each with the break in front of it. -/
inductive Tail where
  | nil
  | cons (gap : Break) (item : Form) (rest : Tail)

end

mutual

/-- How deep the lists of a tree nest. -/
def Form.height : Form → Nat
  | .atom _ | .literal _ => 0
  | .empty _ => 1
  | .list _ head tail => max head.height tail.height + 1

/-- How deep the lists among some elements nest. -/
def Tail.height : Tail → Nat
  | .nil => 0
  | .cons _ item rest => max item.height rest.height

end

/-! ### Columns -/

/-- The column at which a list that opens at `column` indents its further lines. An operator with an
operand on its line aligns with that operand, or puts the body two columns inside; one that stands
alone on its line aligns with itself, or does the same. A list without an operator aligns with its
first element. -/
def bodyColumn (style : Style) (column : Nat) : Form → Tail → Nat
  | .atom a, .cons .space _ _ =>
    let flags := style.rules.lookup a.text (column + 1 : Nat)
    if flags.special && !flags.uniform then column + 2 else column + a.chars.length + 2
  | .atom a, .cons .newline _ _ =>
    if (style.rules.lookup a.text (column + 1 : Nat)).special then column + 2 else column + 1
  | _, _ => column + 1

/-- A break, in a list that indents its lines at `body`. -/
def Break.render (body : Nat) : Break → List Char
  | space => [' ']
  | newline => '\n' :: List.replicate body ' '

mutual

/-- Writes a tree from a column on. -/
def Form.render (style : Style) (column : Nat) : Form → List Char
  | .atom a => a.chars
  | .literal l => l.render
  | .empty bracket => [bracket.opening, bracket.closing]
  | .list bracket head tail =>
    let first := bracket.opening :: head.render style (column + 1)
    first ++ tail.render style (bodyColumn style column head tail) (columnAfter column first) ++
      [bracket.closing]

/-- Writes the further elements of a list that indents its lines at `body`, from a column on. -/
def Tail.render (style : Style) (body column : Nat) : Tail → List Char
  | .nil => []
  | .cons gap item rest =>
    let lead := gap.render body
    let text := item.render style (columnAfter column lead)
    lead ++ text ++ rest.render style body (columnAfter column (lead ++ text))

end

/-! ### Pages -/

/-- Whether a tree may stand outside of all lists: it is no wrapper, whose contents are not
indented, and no section, whose imports are in order. -/
def Form.IsOrdinary (style : Style) : Form → Prop
  | .list _ (.atom a) _ =>
    (style.rules.lookup a.text 1).wrapper = false ∧ a.text ∉ style.sectionOperators
  | _ => True

instance (style : Style) : DecidablePred (Form.IsOrdinary style)
  | .list _ (.atom _) _ => inferInstanceAs (Decidable (_ ∧ _))
  | .list _ (.literal _) _ | .list _ (.empty _) _ | .list _ (.list ..) _ => .isTrue trivial
  | .atom _ | .literal _ | .empty _ => .isTrue trivial

/-- A tree on lines of its own. -/
structure Paragraph where
  form : Form
  /-- Whether an empty line stands in front. -/
  spaced : Bool

/-- The lines of a paragraph. -/
def Paragraph.lines (style : Style) (p : Paragraph) : List (List Char) :=
  (if p.spaced then [[]] else []) ++ splitLines (p.form.render style 0)

/-- The lines of some paragraphs. -/
def pageLines (style : Style) (page : List Paragraph) : List (List Char) :=
  page.flatMap (Paragraph.lines style)

/-- What the convention asks of a page beyond its indentation. -/
structure Conforms (style : Style) (page : List Paragraph) : Prop where
  height_lt : ∀ p ∈ page, p.form.height < style.maxDepth
  ordinary : ∀ p ∈ page, p.form.IsOrdinary style
  length_le : ∀ line ∈ pageLines style page, line.length ≤ style.maxColumns

end SchemeStyle.Layout
