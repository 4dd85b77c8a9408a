import SchemeStyle.RuleTable

/-!
# The style in force

The adjustable parts of the style guide. The two bounds that the checks rely on are part of the
type: a line may have a character, and a form may be opened.
-/

namespace SchemeStyle

/-- The settings of a run. -/
structure Style where
  /-- The number of characters that a line may have. -/
  maxColumns : Nat := 80
  /-- Nesting stays below this depth. -/
  maxDepth : Nat := 64
  /-- A line that ends in this text is not checked for its indentation. -/
  noAlignMark : String := "; NOALIGN"
  /-- Operators that open a section when they start a line. -/
  sectionOperators : List String := ["Chapter", "Section", "Exercise"]
  /-- The operator that opens the imports of a section. -/
  useKeyword : String := "use"
  /-- The extensions of the files that are picked up from a directory. -/
  extensions : List String := [".ss", ".md"]
  /-- Indentation rules that take precedence over the built-in ones. -/
  indentRules : RuleTable := {}
  maxColumns_pos : 0 < maxColumns := by decide
  two_le_maxDepth : 2 ≤ maxDepth := by decide
  deriving DecidableEq, Repr

namespace Style

/-- The style of the style guide itself. -/
def standard : Style := {}

instance : Inhabited Style := ⟨standard⟩

/-- The indentation rules in force. -/
def rules (style : Style) : RuleTable :=
  style.indentRules.withDefaults .builtin

end Style

end SchemeStyle
