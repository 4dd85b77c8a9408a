import SchemeStyle.Style

/-!
# Nested import forms

A section form may hold one form of imports, which holds declarations `(ID NAME ...)`. Which of the
three are open, at what nesting depth each began, and what has to be remembered for the order of
imports is a value of `ImportContext`: an id is remembered only inside the imports and a name only
inside a declaration.
-/

namespace SchemeStyle

/-- The innermost import form. -/
inductive ImportBlock where
  | outside
  | «section»
  | imports
  | declaration
  deriving DecidableEq, Repr

/-- The import form that an operator opens by itself, judged by its name and its column (counted
from zero): a section starts its line, and the imports stand two columns inside it. -/
def Style.importBlock (style : Style) (name : String) (column : Int) : ImportBlock :=
  if column = 1 ∧ name ∈ style.sectionOperators then .section
  else if column = 3 ∧ name = style.useKeyword then .imports
  else .outside

/-- The open import forms, with the depth at which each began, and the last id and name seen. -/
inductive ImportContext where
  | outside
  | inSection (sectionDepth : Nat)
  | inImports (sectionDepth importsDepth : Nat) (lastId : String)
  | inDeclaration (sectionDepth importsDepth depth : Nat) (lastId lastName : String)
  deriving DecidableEq, Repr

namespace ImportContext

instance : Inhabited ImportContext := ⟨outside⟩

/-- The innermost open import form. -/
def block : ImportContext → ImportBlock
  | outside => .outside
  | inSection _ => .section
  | inImports .. => .imports
  | inDeclaration .. => .declaration

/-- The depths at which the open import forms began, outermost first. -/
def depths : ImportContext → List Nat
  | outside => []
  | inSection s => [s]
  | inImports s u _ => [s, u]
  | inDeclaration s u d _ _ => [s, u, d]

/-- The last import id, empty if there is none to compare with. -/
def lastId : ImportContext → String
  | inImports _ _ id | inDeclaration _ _ _ id _ => id
  | _ => ""

/-- The last imported name, empty if there is none to compare with. -/
def lastName : ImportContext → String
  | inDeclaration _ _ _ _ name => name
  | _ => ""

/-- Opens the next import form at a depth. Nothing nests inside a declaration. -/
def enter (depth : Nat) : ImportContext → ImportContext
  | outside => inSection depth
  | inSection s => inImports s depth ""
  | inImports s u id => inDeclaration s u depth id ""
  | inDeclaration s u d id name => inDeclaration s u d id name

/-- Forgets the innermost import form and what was remembered in it. -/
def outer : ImportContext → ImportContext
  | outside => outside
  | inSection _ => outside
  | inImports s _ _ => inSection s
  | inDeclaration s u _ id _ => inImports s u id

/-- Closes the innermost import form if it began at this depth. The first component is the form
that was closed. -/
def leave (depth : Nat) (ctx : ImportContext) : Option ImportBlock × ImportContext :=
  if ctx.depths.getLast? = some depth then (some ctx.block, ctx.outer) else (none, ctx)

/-- Replaces the last import id. -/
def setLastId (id : String) : ImportContext → ImportContext
  | inImports s u _ => inImports s u id
  | inDeclaration s u d _ name => inDeclaration s u d id name
  | ctx => ctx

/-- Replaces the last imported name. -/
def setLastName (name : String) : ImportContext → ImportContext
  | inDeclaration s u d id _ => inDeclaration s u d id name
  | ctx => ctx

/-! ### Depths after changes -/

theorem length_depths_le (ctx : ImportContext) : ctx.depths.length ≤ 3 := by
  cases ctx <;> simp [depths]

@[simp] theorem depths_setLastName (name : String) (ctx : ImportContext) :
    (ctx.setLastName name).depths = ctx.depths := by
  cases ctx <;> rfl

@[simp] theorem depths_outer (ctx : ImportContext) : ctx.outer.depths = ctx.depths.dropLast := by
  cases ctx <;> rfl

end ImportContext

end SchemeStyle
